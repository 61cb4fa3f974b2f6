import SdfScene.Builtin
import SdfScene.Proofs.Scene.Compiling
import SdfScene.Session.Basic

/-!
# Compilations of a session

What one compilation leaves behind, and what any number of them do to each other. In the
tree, a compilation splits the wide combinators below its node and changes nothing else. It
is followed by others that give what they would have given without it, since every node is
still there and draws what it drew.
-/

namespace SdfScene

open Shape

/-- A compilation: the mode that is chosen for it, and the node. -/
structure CompileCall where
  mode : FlattenMode
  id : Option NodeId

namespace Session

/-- Compile a node in a mode, which is the mode of the session from then on. -/
def compileAs (session : Session) (call : CompileCall) : Except SceneError String × Session :=
  { session with flatten := call.mode }.compile call.id

/-- The session after some compilations. -/
def compileAll : Session → List CompileCall → Session
  | session, [] => session
  | session, call :: calls => compileAll (session.compileAs call).2 calls

/-- The allocator has the ids that a compilation takes. -/
def HasRoom (session : Session) (call : CompileCall) : Prop :=
  ∀ node, session.desk.scene.target? call.id = some node →
    session.desk.ids.floor + call.mode.issued node.splits < 2 ^ 64

/-- The allocator has the ids that each of some compilations takes when its turn comes. -/
def HasRoomFor : Session → List CompileCall → Prop
  | _, [] => True
  | session, call :: calls =>
    session.HasRoom call ∧ HasRoomFor (session.compileAs call).2 calls

instance (session : Session) (call : CompileCall) : Decidable (session.HasRoom call) :=
  decidable_of_iff ((session.desk.scene.target? call.id).all fun node =>
      session.desk.ids.floor + call.mode.issued node.splits < 2 ^ 64) <| by
    simp only [HasRoom, Option.all_eq_true, decide_eq_true_eq]

instance decidableHasRoomFor :
    (session : Session) → (calls : List CompileCall) → Decidable (session.HasRoomFor calls)
  | _, [] => isTrue trivial
  | session, call :: calls =>
    have := decidableHasRoomFor (session.compileAs call).2 calls
    inferInstanceAs (Decidable (session.HasRoom call ∧ (session.compileAs call).2.HasRoomFor calls))

/-! One compilation. -/

/-- The text of a compiled node is its code, and the scene has in its place what the mode
leaves. -/
theorem compileAs_target {session : Session} {call : CompileCall} {node : Shape}
    (hscene : session.desk.scene.Numbered session.desk.ids)
    (htarget : session.desk.scene.target? call.id = some node) (hroom : session.HasRoom call) :
    (session.compileAs call).1 = .ok node.code ∧
      ∃ after, (session.compileAs call).2.desk =
          ⟨after, ⟨session.desk.ids.floor + call.mode.spent node.splits⟩, session.desk.history⟩ ∧
        Swapped node.id node (call.mode.split session.desk.ids.floor node)
          session.desk.scene.tree after.tree := by
  obtain ⟨after, hlower, hswapped⟩ := hscene.lower_eq htarget (hroom node htarget)
  refine ⟨?_, after, ?_, hswapped⟩
  · simp only [compileAs, compile, hlower, adopt, Lowered.text, code]
    cases node.drawn? .identity <;> rfl
  · simp only [compileAs, compile, hlower, adopt]

/-- A compilation without a node leaves the desk as it is. -/
theorem desk_compileAs_of_no_target {session : Session} {call : CompileCall}
    (htarget : session.desk.scene.target? call.id = none) :
    (session.compileAs call).2.desk = session.desk := by
  simp only [compileAs, compile]
  split
  · rfl
  · next lowered hlower =>
    rw [(Scene.lower_of_no_target htarget hlower).1]
    rfl

/-- A compilation for the moment leaves the desk as it is, whatever is on it. -/
theorem desk_compileAs_transient (session : Session) (id : Option NodeId) :
    (session.compileAs ⟨.transient, id⟩).2.desk = session.desk := by
  simp only [compileAs, compile]
  split
  · rfl
  · next lowered hlower =>
    obtain ⟨htree, hids⟩ := Scene.lower_transient_keeps hlower
    simp only [adopt, htree, hids]

/-- Compiling a node in the tree makes its splits and no other change: one new node for each
child beyond the second, under the next ids. For the moment nothing is changed. -/
theorem compileAs_splits (session : Session) (id : Option NodeId) (node : Shape)
    (hscene : session.desk.scene.Numbered session.desk.ids)
    (htarget : session.desk.scene.target? id = some node)
    (hroom : session.desk.ids.floor + (node.nodes.map excess).sum < 2 ^ 64) :
    (∃ flat, Scene.SplitInPlace node flat (session.desk.ids.upcoming (node.nodes.map excess).sum)
        session.desk.scene (session.compileAs ⟨.inPlace, id⟩).2.desk.scene) ∧
      (session.compileAs ⟨.inPlace, id⟩).2.desk.ids.floor =
        session.desk.ids.floor + (node.nodes.map excess).sum ∧
      (session.compileAs ⟨.transient, id⟩).2.desk = session.desk := by
  rw [← splits_eq_sum_excess] at hroom ⊢
  have hcall : session.HasRoom ⟨.inPlace, id⟩ := fun other hother => by
    rw [htarget, Option.some.injEq] at hother
    exact hother ▸ hroom
  obtain ⟨-, after, hdesk, hswapped⟩ := compileAs_target hscene htarget hcall
  rw [hdesk]
  exact ⟨⟨_, hscene.splitInPlace hroom hswapped⟩, rfl, session.desk_compileAs_transient id⟩

/-- Two wide unions, one in the other. -/
def nested : Session where
  desk.scene.shapes :=
    [.combinator .union
      [.custom "a" .identity ⟨"2"⟩,
        .combinator .xor [.custom "b" .identity ⟨"4"⟩, .custom "c" .identity ⟨"5"⟩,
          .custom "" .identity ⟨"x"⟩] .one .identity ⟨"3"⟩,
        .custom "d" .identity ⟨"6"⟩, .custom "e" .identity ⟨"7"⟩] .zero .identity ⟨"1"⟩]
  desk.ids := ⟨7⟩
  desk.history := []
  camera := Builtin.camera
  flatten := .transient
  publishPreview := false
  preview := none

/-- The three splits of two unions take the ids 8, 9 and 10. -/
theorem compileAs_splits_of_nested :
    nested.desk.scene.Numbered nested.desk.ids ∧
      (∃ node flat, nested.desk.scene.target? none = some node ∧
        (node.nodes.map excess).sum = 3 ∧
        Scene.SplitInPlace node flat [⟨"8"⟩, ⟨"9"⟩, ⟨"10"⟩] nested.desk.scene
          (nested.compileAs ⟨.inPlace, none⟩).2.desk.scene) ∧
      (nested.compileAs ⟨.inPlace, none⟩).2.desk.ids.floor = 10 := by
  have hscene : nested.desk.scene.Numbered nested.desk.ids :=
    ⟨by decide +kernel, by decide +kernel⟩
  obtain ⟨⟨flat, hflat⟩, hfloor, -⟩ :=
    compileAs_splits nested none _ hscene rfl (by decide +kernel)
  exact ⟨hscene, ⟨_, flat, rfl, rfl, hflat⟩, hfloor⟩

/-! Compilations one after the other. -/

theorem compileAll_append (session : Session) (calls others : List CompileCall) :
    session.compileAll (calls ++ others) = (session.compileAll calls).compileAll others := by
  induction calls generalizing session with
  | nil => rfl
  | cons call calls ih => exact ih _

theorem HasRoomFor.append {session : Session} {calls others : List CompileCall}
    (h : session.HasRoomFor (calls ++ others)) :
    session.HasRoomFor calls ∧ (session.compileAll calls).HasRoomFor others := by
  induction calls generalizing session with
  | nil => exact ⟨trivial, h⟩
  | cons call calls ih => exact ⟨⟨h.1, (ih h.2).1⟩, (ih h.2).2⟩

/-- What one compilation leaves comes after by lowering a node. -/
theorem compiled_compileAs {session : Session} {call : CompileCall}
    (hscene : session.desk.scene.Numbered session.desk.ids) (hroom : session.HasRoom call) :
    session.desk.Compiled (session.compileAs call).2.desk := by
  cases htarget : session.desk.scene.target? call.id with
  | none =>
    rw [desk_compileAs_of_no_target htarget]
    exact .refl hscene
  | some node =>
    obtain ⟨-, after, hdesk, hswapped⟩ := compileAs_target hscene htarget hroom
    rw [hdesk]
    exact .of_swapped hscene htarget (hroom node htarget) hswapped rfl

/-- What any number of compilations leave comes after by lowering nodes. -/
theorem compiled_compileAll {session : Session} {calls : List CompileCall}
    (hscene : session.desk.scene.Numbered session.desk.ids) (hroom : session.HasRoomFor calls) :
    session.desk.Compiled (session.compileAll calls).desk := by
  induction calls generalizing session with
  | nil => exact .refl hscene
  | cons call calls ih =>
    have hstep := compiled_compileAs hscene hroom.1
    exact hstep.trans (ih hstep.numbered hroom.2)

/-- Where a node can be compiled after others, it could be before them: what it has less to
split by then was issued for. -/
theorem HasRoom.before {session later : Session} {call : CompileCall}
    (hscene : session.desk.scene.Numbered session.desk.ids)
    (hcompiled : session.desk.Compiled later.desk) (hroom : later.HasRoom call) :
    session.HasRoom call := by
  intro node htarget
  obtain ⟨same, hsame, hsplit⟩ := hcompiled.exists_target hscene htarget
  have hlater := hroom same hsame
  have hcounted := hsplit.counted
  have hfewer := hsplit.fewer
  have hle := hcompiled.floor_le
  cases hmode : call.mode <;> simp only [hmode, FlattenMode.issued] at hlater ⊢ <;> omega

/-- A node with nothing left to split is compiled without a change. -/
theorem desk_compileAs_of_splits_eq_zero {session : Session} {call : CompileCall} {node : Shape}
    (hscene : session.desk.scene.Numbered session.desk.ids)
    (htarget : session.desk.scene.target? call.id = some node) (hsplits : node.splits = 0) :
    (session.compileAs call).2.desk = session.desk := by
  obtain ⟨after, hlower, hswapped⟩ := hscene.exists_lowered htarget call.mode
  obtain ⟨htree, hids⟩ := lower_keeps call.mode hsplits .identity session.desk.ids
  rw [htree] at hswapped
  have hafter : after = session.desk.scene := Scene.tree_injective hswapped.eq_of_same
  simp only [compileAs, compile, hlower, adopt, hafter, hids]

/-- A node that was compiled in the tree has nothing left to split, and whatever is compiled
after it, compiling it again leaves the desk. -/
theorem desk_compileAs_again {session : Session} {id : Option NodeId} {text : String}
    {between : List CompileCall} (hscene : session.desk.scene.Numbered session.desk.ids)
    (hcompile : (session.compileAs ⟨.inPlace, id⟩).1 = .ok text)
    (hroom : session.HasRoomFor (⟨.inPlace, id⟩ :: between)) (mode : FlattenMode) :
    ((session.compileAll (⟨.inPlace, id⟩ :: between)).compileAs ⟨mode, id⟩).2.desk =
      (session.compileAll (⟨.inPlace, id⟩ :: between)).desk := by
  have hstep := compiled_compileAs hscene hroom.1
  have hrest := compiled_compileAll hstep.numbered hroom.2
  cases htarget : session.desk.scene.target? id with
  | none =>
    -- Only the displayed shape of an empty scene compiles without a node.
    simp only [compileAs, compile] at hcompile
    split at hcompile
    · cases hcompile
    · next lowered hlower =>
      obtain ⟨-, hcontent, hdisplayed⟩ := Scene.lower_of_no_target htarget hlower
      refine desk_compileAs_of_no_target ?_
      exact (hdisplayed _).trans ((hstep.trans hrest).content?_eq_none hcontent)
  | some node =>
    obtain ⟨-, after, hdesk, hswapped⟩ := compileAs_target hscene htarget hroom.1
    obtain ⟨flat, hflat, hsplit⟩ := hstep.exists_target hscene htarget
    have hfound := (hstep.numbered.find?_of_target? hflat).2
    rw [hdesk, hsplit.id_eq, hswapped.find?_new (id_splitAbove _ node), Option.some.injEq] at hfound
    obtain ⟨later, hlater, hsplit'⟩ := hrest.exists_target hstep.numbered hflat
    refine desk_compileAs_of_splits_eq_zero hrest.numbered hlater ?_
    have hfewer := hsplit'.fewer
    rw [← hfound] at hfewer
    exact Nat.le_zero.mp (Nat.le_trans hfewer (Nat.le_of_eq (splits_splitAbove _ node)))

/-- Compilations do not change what anything compiles to. Every node stays under its id, each
compilation of a node gives the code of the node as it was at first, as it would have at first
in either mode, and a node that was compiled in the tree is compiled again without a change. -/
theorem compileAll_keeps_code (session : Session) (calls : List CompileCall)
    (hscene : session.desk.scene.Numbered session.desk.ids) (hroom : session.HasRoomFor calls) :
    (∀ id node, session.desk.scene.find? id = some node →
        ∃ later, (session.compileAll calls).desk.scene.find? id = some later ∧
          later.bare = node.bare) ∧
      (∀ front call back, calls = front ++ call :: back →
        ∀ node, session.desk.scene.target? call.id = some node →
          ((session.compileAll front).compileAs call).1 = .ok node.code ∧
            (session.compileAs call).1 = .ok node.code ∧
            ∀ mode, session.HasRoom ⟨mode, call.id⟩ →
              (session.compileAs ⟨mode, call.id⟩).1 = .ok node.code) ∧
      (∀ front id between back text, calls = front ++ ⟨.inPlace, id⟩ :: (between ++ back) →
        ((session.compileAll front).compileAs ⟨.inPlace, id⟩).1 = .ok text →
          ∀ mode,
            ((session.compileAll (front ++ ⟨.inPlace, id⟩ :: between)).compileAs
                ⟨mode, id⟩).2.desk =
              (session.compileAll (front ++ ⟨.inPlace, id⟩ :: between)).desk) := by
  refine ⟨fun id node hnode => ?_, ?_, ?_⟩
  · have hne := (hscene.find?_tree hnode).1
    have hfinal := compiled_compileAll hscene hroom
    rw [← Scene.target?_of_ne hne] at hnode
    obtain ⟨later, hlater, hsplit⟩ := hfinal.exists_target hscene hnode
    exact ⟨later, Scene.target?_of_ne hne ▸ hlater, hsplit.bare⟩
  · rintro front call back rfl node htarget
    obtain ⟨hfront, hcall, -⟩ := hroom.append
    have hcompiled := compiled_compileAll hscene hfront
    obtain ⟨later, hlater, hsplit⟩ := hcompiled.exists_target hscene htarget
    have hcode : later.code = node.code := by rw [code, code, hsplit.drawn]
    refine ⟨?_, ?_, fun mode hmode => ?_⟩
    · exact hcode ▸ (compileAs_target hcompiled.numbered hlater hcall).1
    · exact (compileAs_target hscene htarget (hcall.before hscene hcompiled)).1
    · have hsame : session.desk.scene.target? (CompileCall.mk mode call.id).id = some node := htarget
      exact (compileAs_target hscene hsame hmode).1
  · rintro front id between back text rfl htext mode
    rw [← List.cons_append, ← List.append_assoc] at hroom
    obtain ⟨hfront, hthen⟩ := hroom.append.1.append
    rw [compileAll_append]
    exact desk_compileAs_again (compiled_compileAll hscene hfront).numbered htext hthen mode

/-- The inner union is split after the outer one, with a compilation for the moment between. -/
theorem compileAll_keeps_code_of_nested :
    let calls : List CompileCall :=
      [⟨.inPlace, some ⟨"1"⟩⟩, ⟨.transient, none⟩, ⟨.inPlace, some ⟨"3"⟩⟩]
    nested.desk.scene.Numbered nested.desk.ids ∧ nested.HasRoomFor calls ∧
      ∃ later, (nested.compileAll calls).desk.scene.find? ⟨"x"⟩ = some later ∧
        later.bare = .custom "" .identity ⟨"x"⟩ := by
  intro calls
  have hscene : nested.desk.scene.Numbered nested.desk.ids :=
    ⟨by decide +kernel, by decide +kernel⟩
  have hroom : nested.HasRoomFor calls := by decide +kernel
  exact ⟨hscene, hroom, (compileAll_keeps_code nested calls hscene hroom).1 ⟨"x"⟩ _ rfl⟩

end Session

end SdfScene
