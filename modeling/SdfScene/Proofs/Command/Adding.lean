import SdfScene.Proofs.Command.Jobs
import SdfScene.Proofs.Session.Addressing
import SdfScene.Proofs.Storage.Folder

/-!
# Adding from the command line

A command line that adds a node opens a session on the folder, adds the node, saves and prints
its id. What is saved is the displayed shape only. So a node that goes below it is there again
when the folder is opened the next time, if the document can be restored at all, and one that
goes to the root is not: that is where a node goes by itself if the displayed shape cannot hold
children.
-/

namespace SdfScene

open Shape

variable {σ : Type}

namespace Desk

/-- A new node is part of the displayed shape exactly if it does not go to the root. -/
theorem content_of_add {desk after : Desk} {content : Shape}
    (hscene : desk.scene = .ofContent content) (hsound : content.Sound desk.ids)
    (hroom : desk.ids.floor + 1 < 2 ^ 64) {kind : Kind}
    {parent id : NodeId} (hadd : desk.add kind parent = .ok (id, after)) :
    ∃ shape, after.scene.content? = some shape ∧ shape.ids.Nodup ∧
      (∀ x ∈ shape.numbers, x.isFinite) ∧
      shape.find? id = if parent = Scene.rootId then none else some (.ofKind id kind) := by
  obtain ⟨hdistinct, hcovers, hfinite⟩ := hsound
  have hcovers' : desk.ids.Covers desk.scene.tree.ids := by
    rw [hscene]
    exact Scene.covers_tree_ofContent hcovers
  have hfree : id ∉ content.ids := by
    rw [add_id hadd]
    exact hcovers.next_notMem hroom
  obtain ⟨group, hgroup, -⟩ := Outcome.bind_eq_ok.mp hadd
  obtain ⟨_, _, hsame, hafter⟩ := add_of_group hcovers' hroom hgroup kind
  obtain ⟨rfl, rfl⟩ := Prod.mk.inj (Except.ok.inj (hadd.symm.trans hsame))
  rw [hafter, hscene]
  by_cases hroot : parent = Scene.rootId
  · -- The displayed shape stays the first below the root.
    have hchildren : group.children = [content] := by
      rw [hscene, Scene.group, if_pos hroot] at hgroup
      cases hgroup
      rfl
    refine ⟨content, ?_, hdistinct, hfinite, ?_⟩
    · rw [Scene.withGroup, if_pos hroot, hchildren]
      rfl
    · rw [if_pos hroot, find?_eq_none]
      exact hfree
  · obtain ⟨-, node, hnode, hchildren⟩ := Scene.exists_combinator_of_group hgroup
    have hfound : content.find? parent = some node := by
      rw [hscene, Scene.find?_tree hroot, Scene.find?, Scene.ofContent, findIn?, findIn?,
        Option.or_none] at hnode
      exact hnode
    obtain ⟨shape, hupdate, hids, hnumbers, hnew⟩ :=
      exists_appended hchildren (.ofKind id kind) hfound
    rw [ids_ofKind] at hids
    have hnodup : shape.ids.Nodup := by
      rw [hids.nodup_iff, List.nodup_append_comm, List.singleton_append, List.nodup_cons]
      exact ⟨hfree, hdistinct⟩
    refine ⟨shape, ?_, hnodup, fun x hx => ?_, ?_⟩
    · simp only [Scene.withGroup, hroot, ite_false, Scene.update, Scene.ofContent, updateIn?,
        hupdate, Option.getD_some, Scene.content?, List.head?_cons]
    · rcases List.mem_append.mp (hnumbers.mem_iff.mp hx) with hold | hadded
      · exact hfinite x hold
      · exact isFinite_of_mem_ofKind id kind x hadded
    · have hin := find?_of_mem_nodes hnodup hnew
      rw [id_ofKind] at hin
      rw [if_neg hroot, hin]

end Desk

namespace Session

/-- A session that is opened after a shape was saved shows this shape if it can be restored. -/
theorem scene_of_saved {store : Store (StateM σ)} {works : σ → Prop}
    {kept? : σ → String → Option String}
    (hstore : store.WorksWith Store.sessionKeys works kept?) {session : Session}
    {storage saved : σ} (hworks : works storage) {shape : Shape}
    (hcontent : session.desk.scene.content? = some shape)
    (hsave : (session.save store).run.run storage = (.ok (), saved))
    (hrestorable : shape.Restorable) (settings : Settings) :
    ((ofStore store settings).run saved).1.desk.scene = .ofContent shape := by
  obtain ⟨hsaved, hwritten⟩ := entry_of_save hstore hworks hcontent hsave
  obtain ⟨hdesk, -⟩ := ofStore_works hstore hsaved settings
  rw [hdesk, hwritten, Store.contentOf_encoded.mpr hrestorable]

end Session

namespace Command

open Job

/-! What the jobs come to. -/

/-- A command line is carried out to the end exactly if its request is. -/
theorem run_eq_done {disk : Disk (StateM σ)} {environment : Environment}
    {arguments : List String} {request : Request}
    (hrequest : Request.ofArguments arguments = .ok request) {storage saved : σ}
    {output errors : String} :
    (run disk environment arguments).run storage = (⟨0, output, errors⟩, saved) ↔
      (request.run disk environment).outcome "" storage = ((.ok (), output), saved) ∧
        errors = "" := by
  rw [run, hrequest]
  simp only [StateT.run_bind, outcome]
  rcases StateT.run (StateT.run (ExceptT.run (request.run disk environment)) "") storage with
    ⟨⟨result, printed⟩, later⟩
  cases result with
  | error failure =>
    refine iff_of_false (fun h => ?_) (fun h => ?_)
    · cases h
    · cases h.1
  | ok done =>
    constructor
    · intro h
      cases h
      exact ⟨rfl, rfl⟩
    · rintro ⟨h, rfl⟩
      cases h
      rfl

/-- A request with a folder is an action in the session that is opened on it. -/
theorem Request.outcome_run {disk : Disk (StateM σ)} {environment : Environment}
    {request : Request} {folder : String} {storage : σ}
    (hfolder : sceneFolder? environment (request.folder.or
      ((loadSettings disk environment).run storage).1.folder) = some folder) (printed : String) :
    ∃ settings, (request.run disk environment).outcome printed storage =
      (perform disk (disk.store folder)
        ((Session.ofStore (disk.store folder) settings).run
          ((loadSettings disk environment).run storage).2).1 request.action).outcome printed
        ((Session.ofStore (disk.store folder) settings).run
          ((loadSettings disk environment).run storage).2).2 := by
  rw [Request.run, outcome_bind_lift]
  simp only [hfolder]
  exact ⟨_, outcome_bind_lift _ _ _ _⟩

/-- Adding succeeds exactly if the edit and the saving do, and prints the id. -/
theorem perform_add {disk : Disk (StateM σ)} {store : Store (StateM σ)} {session : Session}
    {kind : Kind} {parent : Option String} {printed output : String} {storage saved : σ} :
    (perform disk store session (.add kind parent)).outcome printed storage =
        ((.ok (), output), saved) ↔
      ∃ id after, session.desk.add kind
          ((parent.map NodeId.mk).getD (defaultParent session.desk.scene)) = .ok (id, after) ∧
        ({ session with desk := after }.save store).run.run storage = (.ok (), saved) ∧
        output = printed ++ (id.text ++ "\n") := by
  constructor
  · intro h
    obtain ⟨⟨id, later⟩, text, between, hedited, hrest⟩ := bind_eq_ok.mp h
    obtain ⟨hedit, rfl, rfl⟩ := edited_eq_ok.mp hedited
    obtain ⟨⟨⟩, text', between', hsaved, hprint⟩ := bind_eq_ok.mp hrest
    obtain ⟨hsave, rfl⟩ := attempt_eq_ok.mp hsaved
    rw [outcome_printLine] at hprint
    cases hprint
    obtain ⟨after, hadd, rfl⟩ := Session.edit_eq_ok.mp hedit
    exact ⟨id, after, hadd, hsave, rfl⟩
  · rintro ⟨id, after, hadd, hsave, rfl⟩
    refine bind_eq_ok.mpr ⟨(id, { session with desk := after }), printed, storage,
      edited_eq_ok.mpr ⟨Session.edit_eq_ok.mpr ⟨after, hadd, rfl⟩, rfl, rfl⟩, ?_⟩
    exact bind_eq_ok.mpr ⟨(), printed, saved, attempt_eq_ok.mpr ⟨hsave, rfl⟩, rfl⟩

/-- Reading the settings leaves the disk as it was if reading a file does. -/
theorem loadSettings_snd {disk : Disk (StateM σ)}
    (hread : ∀ path storage, ((disk.readText path).run.run storage).2 = storage)
    (environment : Environment) (storage : σ) :
    ((loadSettings disk environment).run storage).2 = storage := by
  rw [loadSettings]
  split
  · next path _ =>
    rw [Settings.load, StateT.run_bind]
    refine Eq.trans ?_ (hread path storage)
    rcases (disk.readText path).run.run storage with ⟨result, later⟩
    cases result with
    | error e => rfl
    | ok text =>
      dsimp only [bind]
      cases Settings.ofDocument text <;> rfl
  · rfl

/-- A command line that adds a node is carried out to the end exactly if the node can be added
to the scene in the folder and the scene saved. It prints the id. -/
theorem run_add {disk : Disk (StateM σ)}
    (hread : ∀ path storage, ((disk.readText path).run.run storage).2 = storage)
    {environment : Environment} {arguments : List String} {request : Request} {folder : String}
    {kind : Kind} {parent : Option String} {storage : σ}
    (hrequest : Request.ofArguments arguments = .ok request)
    (haction : request.action = .add kind parent)
    (hfolder : sceneFolder? environment (request.folder.or
      ((loadSettings disk environment).run storage).1.folder) = some folder) :
    ∃ settings, let opened := (Session.ofStore (disk.store folder) settings).run storage
      ∀ output errors saved,
        (run disk environment arguments).run storage = (⟨0, output, errors⟩, saved) ↔
          (∃ id after, opened.1.desk.add kind
              ((parent.map NodeId.mk).getD (defaultParent opened.1.desk.scene)) =
                .ok (id, after) ∧
            ({ opened.1 with desk := after }.save (disk.store folder)).run.run opened.2 =
              (.ok (), saved) ∧ output = id.text ++ "\n") ∧ errors = "" := by
  obtain ⟨settings, hrun⟩ := Request.outcome_run hfolder ""
  refine ⟨settings, fun output errors saved => ?_⟩
  rw [run_eq_done hrequest, hrun, haction, loadSettings_snd hread, perform_add]
  simp only [String.empty_append]

/-! Folders in memory. -/

/-- Reading a file in memory leaves all files as they were. -/
theorem readText_snd (path : String) (memory : Memory) :
    ((Memory.disk.readText path).run.run memory).2 = memory := by
  rw [Memory.run_readText]

/-- A session is opened in memory on a restorable shape. -/
theorem desk_of_entry {folder : String} {memory : Memory} {shape : Shape}
    (hentry : memory.get? (joinPath folder (Store.rootKey ++ ".json")) = some shape.encoded)
    (hrestorable : shape.Restorable) (settings : Settings) :
    ((Session.ofStore (Memory.disk.store folder) settings).run memory).1.desk =
      ⟨.ofContent shape, ⟨max 0 (NodeId.highest shape.ids)⟩, []⟩ := by
  obtain ⟨hdesk, -⟩ := Session.ofStore_works (Memory.works_folder folder) trivial settings
  rw [hdesk, hentry, Store.contentOf, restore_encoded_eq_ok.mpr ⟨hrestorable, rfl⟩]
  rfl

/-- In memory every save succeeds, so every node that can be added to a restorable shape is added
from the command line. -/
theorem exists_run_add (environment : Environment) {arguments : List String}
    {request : Request} {folder : String} {kind : Kind} {parent : Option String}
    {memory : Memory} {shape : Shape}
    (hrequest : Request.ofArguments arguments = .ok request)
    (haction : request.action = .add kind parent) (hfolder : request.folder = some folder)
    (hentry : memory.get? (joinPath folder (Store.rootKey ++ ".json")) = some shape.encoded)
    (hrestorable : shape.Restorable) {id : NodeId} {after : Desk} {content : Shape}
    (hadd : Desk.add ⟨.ofContent shape, ⟨max 0 (NodeId.highest shape.ids)⟩, []⟩ kind
      ((parent.map NodeId.mk).getD (defaultParent (.ofContent shape))) = .ok (id, after))
    (hcontent : after.scene.content? = some content) :
    ∃ saved : Memory, (run Memory.disk environment arguments).run memory =
        (⟨0, id.text ++ "\n", ""⟩, saved) ∧
      (content.Restorable → ∀ settings,
        ((Session.ofStore (Memory.disk.store folder) settings).run saved).1.desk.scene =
          .ofContent content) := by
  have hnamed : sceneFolder? environment (request.folder.or
      ((loadSettings Memory.disk environment).run memory).1.folder) = some folder := by
    rw [hfolder]
    rfl
  obtain ⟨settings, hiff⟩ := run_add readText_snd hrequest haction hnamed
  have hdesk := desk_of_entry hentry hrestorable settings
  rcases hopen : (Session.ofStore (Memory.disk.store folder) settings).run memory with
    ⟨opened, between⟩
  rw [hopen] at hdesk hiff
  dsimp only at hdesk
  obtain ⟨saved, hsave⟩ : ∃ saved, ({ opened with desk := after }.save
      (Memory.disk.store folder)).run.run between = (.ok (), saved) :=
    ⟨_, (Session.save_ok hcontent).mpr
      ⟨_, Memory.run_folder_set _ _ _ _, Memory.run_folder_set _ _ _ _⟩⟩
  refine ⟨saved, (hiff _ _ _).mpr ⟨⟨id, after, ?_, hsave, rfl⟩, rfl⟩, fun hagain later =>
    Session.scene_of_saved (Memory.works_folder folder) trivial hcontent hsave hagain later⟩
  rw [hdesk]
  exact hadd

/-- A folder with the document of one shape. -/
def folderOf (shape : Shape) : Memory :=
  ⟨[(joinPath "s" (Store.rootKey ++ ".json"), shape.encoded)], []⟩

/-- A command line that adds a sphere, with no parent named. -/
theorem ofArguments_add_sphere : Request.ofArguments ["--store", "s", "add", "sphere"] =
    .ok ⟨some "s", false, .add (.primitive .sphere) none⟩ := by decide +kernel

/-! What is found again. -/

/-- A command line adds a node of a kind to the scene in a folder that works, and prints the id
of the node. A session that is opened on the folder afterwards finds under this id a new node
of the kind, unless the node went to the root; then it finds nothing. This holds if what is
displayed can be restored: it has at most thirty-one generations, and no id is too large. -/
theorem run_add_reopened {disk : Disk (StateM σ)} {folder : String} {works : σ → Prop}
    {kept? : σ → String → Option String}
    (hstore : (disk.store folder).WorksWith Store.sessionKeys works kept?)
    (hread : ∀ path storage, ((disk.readText path).run.run storage).2 = storage)
    {environment : Environment} {arguments : List String} {request : Request} {kind : Kind}
    {parent : Option String} {storage saved : σ} {output errors : String}
    (hworks : works storage) (hrequest : Request.ofArguments arguments = .ok request)
    (haction : request.action = .add kind parent)
    (hfolder : sceneFolder? environment (request.folder.or
      ((loadSettings disk environment).run storage).1.folder) = some folder)
    (hrun : (run disk environment arguments).run storage = (⟨0, output, errors⟩, saved))
    (settings : Settings) :
    let opened := ((Session.ofStore (disk.store folder) settings).run storage).1
    let reopened := ((Session.ofStore (disk.store folder) settings).run saved).1
    let target := (parent.map NodeId.mk).getD (defaultParent opened.desk.scene)
    ∃ id after shape, opened.desk.add kind target = .ok (id, after) ∧
      output = id.text ++ "\n" ∧ after.scene.content? = some shape ∧
      (shape.height ≤ 31 → Allocator.Covers ⟨NodeId.maxRestored⟩ shape.ids →
        reopened.desk.scene.find? id =
          if target = Scene.rootId then none else some (.ofKind id kind)) := by
  intro opened reopened target
  obtain ⟨own, hiff⟩ := run_add hread hrequest haction hfolder
  obtain ⟨⟨id, after, hadd, hsave, houtput⟩, -⟩ := (hiff output errors saved).mp hrun
  -- The settings decide nothing about the scene.
  have hopened : opened.desk = ((Session.ofStore (disk.store folder) own).run storage).1.desk := by
    rw [Session.desk_ofStore, Session.desk_ofStore]
  rw [← hopened] at hadd
  obtain ⟨hloaded, -⟩ := Session.ofStore_works hstore hworks settings
  obtain ⟨-, hbetween⟩ := Session.ofStore_works hstore hworks own
  have hsound := Store.sound_contentOf .fresh (.ok (kept? storage Store.rootKey))
  have hroom : opened.desk.ids.floor + 1 < 2 ^ 64 := by
    have hle := Store.floor_contentOf_le .fresh (.ok (kept? storage Store.rootKey))
    have hmax : max Allocator.fresh.floor NodeId.maxRestored + 1 < 2 ^ 64 := by decide
    rw [hloaded]
    exact Nat.lt_of_le_of_lt (Nat.succ_le_succ hle) hmax
  obtain ⟨shape, hshape, hdistinct, hfinite, hfind⟩ :=
    Desk.content_of_add (congrArg Desk.scene hloaded) (hloaded ▸ hsound) hroom hadd
  refine ⟨id, after, shape, hadd, houtput, hshape, fun hlow hsmall => ?_⟩
  have hrestorable : shape.Restorable := .of_isFinite hdistinct hsmall hlow hfinite
  have hscene := Session.scene_of_saved hstore hbetween hshape hsave hrestorable settings
  rw [hscene, Scene.find?, Scene.ofContent, findIn?, findIn?, Option.or_none, hfind]

/-- A sphere that goes into a union is found again. -/
theorem run_add_reopened_of_union :
    ∃ saved, (run Memory.disk ⟨none, none⟩ ["--store", "s", "add", "sphere"]).run
        (folderOf (.ofKind ⟨"1"⟩ (.combinator .union))) = (⟨0, "2\n", ""⟩, saved) ∧
      ((Session.ofStore (Memory.disk.store "s") .standard).run saved).1.desk.scene.find? ⟨"2"⟩ =
        some (.ofKind ⟨"2"⟩ (.primitive .sphere)) := by
  generalize hshape : Shape.ofKind ⟨"1"⟩ (.combinator .union) = shape
  have hrestorable : shape.Restorable := hshape ▸ by decide +kernel
  have hentry : (folderOf shape).get? (joinPath "s" (Store.rootKey ++ ".json")) =
      some shape.encoded := List.lookup_cons_self
  obtain ⟨after, hadd, hcontent⟩ : ∃ after, Desk.add ⟨.ofContent shape,
      ⟨max 0 (NodeId.highest shape.ids)⟩, []⟩ (.primitive .sphere)
        (defaultParent (.ofContent shape)) = .ok (⟨"2"⟩, after) ∧ after.scene.content? =
          some (.combinator .union [.ofKind ⟨"2"⟩ (.primitive .sphere)] .zero .identity ⟨"1"⟩) :=
    hshape ▸ ⟨_, rfl, rfl⟩
  obtain ⟨saved, hrun, -⟩ := exists_run_add ⟨none, none⟩ ofArguments_add_sphere rfl rfl
    hentry hrestorable hadd hcontent
  obtain ⟨id, later, content, hadd', -, hcontent', hfind⟩ := run_add_reopened
    (Memory.works_folder "s") readText_snd trivial ofArguments_add_sphere rfl rfl hrun .standard
  rw [desk_of_entry hentry hrestorable] at hadd' hfind
  cases hadd.symm.trans hadd'
  cases hcontent.symm.trans hcontent'
  refine ⟨saved, hrun, ?_⟩
  rw [hfind (by decide +kernel) (by decide +kernel), if_neg]
  subst hshape
  decide +kernel

/-- A sphere that has no combinator to go into is lost. -/
theorem run_add_lost :
    ∃ saved, (run Memory.disk ⟨none, none⟩ ["--store", "s", "add", "sphere"]).run
        (folderOf (.ofKind ⟨"1"⟩ .custom)) = (⟨0, "2\n", ""⟩, saved) ∧
      ∀ settings, ((Session.ofStore (Memory.disk.store "s") settings).run
        saved).1.desk.scene.find? ⟨"2"⟩ = none := by
  generalize hshape : Shape.ofKind ⟨"1"⟩ .custom = shape
  have hrestorable : shape.Restorable := hshape ▸ by decide +kernel
  have hentry : (folderOf shape).get? (joinPath "s" (Store.rootKey ++ ".json")) =
      some shape.encoded := List.lookup_cons_self
  obtain ⟨after, hadd, hcontent⟩ : ∃ after, Desk.add ⟨.ofContent shape,
      ⟨max 0 (NodeId.highest shape.ids)⟩, []⟩ (.primitive .sphere)
        (defaultParent (.ofContent shape)) = .ok (⟨"2"⟩, after) ∧
          after.scene.content? = some shape :=
    hshape ▸ ⟨_, rfl, rfl⟩
  obtain ⟨saved, hrun, hreopened⟩ := exists_run_add ⟨none, none⟩ ofArguments_add_sphere
    rfl rfl hentry hrestorable hadd hcontent
  refine ⟨saved, hrun, fun settings => ?_⟩
  rw [hreopened hrestorable]
  subst hshape
  decide +kernel

end Command

end SdfScene
