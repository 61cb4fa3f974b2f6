import SdfScene.Proofs.Outcome
import SdfScene.Proofs.Storage.Working
import SdfScene.Storage.Disk

/-!
# Folders that work

A folder is a store that works with the two keys of a session if the disk reads back what was
written and moves files. The disk here is as plain as a disk can be: it keeps texts under
paths, and every folder is there. A write to the folder leaves the new text under the path of
the entry, nothing under the path of the temporary file, and all other files as they were.
-/

namespace SdfScene

/-- Names that are not absolute have their own paths below a folder. -/
theorem joinPath_inj {folder name other : String} (hname : name.toList.head? ≠ some '/')
    (hother : other.toList.head? ≠ some '/') :
    joinPath folder name = joinPath folder other ↔ name = other := by
  simp only [joinPath, hname, hother, false_or]
  split
  · exact Iff.rfl
  · split <;> simp

namespace Memory

/-- The entries as the files of a disk on which every folder is there. -/
def disk : Disk (StateM Memory) where
  read path := do
    match (← MonadState.get).get? path with
    | some text => pure text.toUTF8
    | none => throw .notFound
  write path bytes :=
    match String.fromUTF8? bytes with
    | some text => modify fun memory => memory.put path text
    | none => throw .notText
  makeFolder _ := pure ()
  isFolder _ := pure true
  move source target := do
    match (← MonadState.get).get? source with
    | some text => modify fun memory => (memory.erase source).put target text
    | none => throw .notFound
  delete path := do
    match (← MonadState.get).get? path with
    | some _ => modify fun memory => memory.erase path
    | none => throw .notFound

private theorem fromUTF8?_toUTF8 (text : String) : String.fromUTF8? text.toUTF8 = some text := by
  simp only [String.fromUTF8?, String.toUTF8_eq_toByteArray, dif_pos text.isValidUTF8]
  rfl

/-- Reading a file gives its text and changes nothing. -/
theorem run_readText (path : String) (memory : Memory) :
    (disk.readText path).run.run memory =
      ((memory.get? path).elim (.error .notFound) .ok, memory) := by
  have hread : (disk.read path).run.run memory = (match memory.get? path with
      | some text => (pure text.toUTF8 : ExceptT IoError (StateM Memory) ByteArray)
      | none => throw IoError.notFound).run.run memory := rfl
  cases hentry : memory.get? path with
  | none =>
    rw [hentry] at hread
    simp only [Disk.readText, bind, ExceptT.bind, ExceptT.run, ExceptT.mk, StateT.bind,
      StateT.run] at hread ⊢
    rw [hread]
    rfl
  | some text =>
    rw [hentry] at hread
    refine Outcome.run_bind_eq_ok.mpr ⟨text.toUTF8, memory, hread, ?_⟩
    rw [fromUTF8?_toUTF8]
    rfl

/-- An entry of a folder is the text of its file. -/
theorem run_folder_get (folder key : String) (memory : Memory) :
    ((disk.store folder).get key).run.run memory =
      (.ok (memory.get? (joinPath folder (key ++ ".json"))), memory) := by
  have hread := run_readText (joinPath folder (key ++ ".json")) memory
  have hget : (disk.store folder).get key = Disk.orAbsent none
      (some <$> disk.readText (joinPath folder (key ++ ".json"))) := rfl
  rw [hget, Disk.orAbsent, Outcome.run_tryCatch, ExceptT.run_map, StateT.run_map, hread]
  cases memory.get? (joinPath folder (key ++ ".json")) <;> rfl

private theorem run_ensureFolders (folder : String) (memory : Memory) :
    (disk.ensureFolders folder).run.run memory = (.ok (), memory) := by
  rw [Disk.ensureFolders, Disk.ensureFoldersBelow]
  split <;> rfl

/-- A write goes to the temporary file, which then becomes that of the entry. -/
theorem run_folder_set (folder key text : String) (memory : Memory) :
    let temporary := joinPath folder ("." ++ key ++ ".json.tmp")
    ((disk.store folder).set key text).run.run memory =
      (.ok (), ((memory.put temporary text).erase temporary).put
        (joinPath folder (key ++ ".json")) text) := by
  intro temporary
  generalize hpath : joinPath folder (key ++ ".json") = path
  have hset : (disk.store folder).set key text = (do
      disk.ensureFolders folder
      disk.writeText temporary text
      disk.move temporary path) := hpath ▸ rfl
  have hwrite : (disk.writeText temporary text).run.run memory =
      (.ok (), memory.put temporary text) := by
    rw [Disk.writeText, disk]
    simp only [fromUTF8?_toUTF8]
    rfl
  have hmove : (disk.move temporary path).run.run (memory.put temporary text) =
      (match (memory.put temporary text).get? temporary with
        | some text => (modify fun memory : Memory => (memory.erase temporary).put path text :
            ExceptT IoError (StateM Memory) Unit)
        | none => throw IoError.notFound).run.run (memory.put temporary text) := rfl
  rw [get?_put, Function.update_self] at hmove
  rw [hset]
  refine Outcome.run_bind_eq_ok.mpr ⟨(), memory, run_ensureFolders folder memory, ?_⟩
  exact Outcome.run_bind_eq_ok.mpr ⟨(), memory.put temporary text, hwrite, hmove⟩

/-- The file of an entry has a name below the folder and is no path of its own. -/
private theorem fileName_relative {key : String} (h : key ∈ Store.sessionKeys) :
    (key ++ ".json").toList.head? ≠ some '/' := by
  revert key
  decide +kernel

/-- A folder works with the keys of a session. -/
theorem works_folder (folder : String) :
    (disk.store folder).WorksWith Store.sessionKeys (fun _ => True)
      fun memory key => memory.get? (joinPath folder (key ++ ".json")) where
  get key _ memory _ := ⟨memory, run_folder_get folder key memory, trivial, fun _ _ => rfl⟩
  set key hkey text memory later _ hset := by
    rw [run_folder_set] at hset
    cases hset
    refine ⟨trivial, fun other hother => ?_⟩
    have htemporary : joinPath folder (other ++ ".json") ≠
        joinPath folder ("." ++ key ++ ".json.tmp") := by
      rw [Ne, joinPath_inj (fileName_relative hother) (by simp)]
      revert key other
      decide +kernel
    rw [get?_put]
    by_cases hsame : other = key
    · rw [hsame, Function.update_self, Function.update_self]
    · have hpath : joinPath folder (other ++ ".json") ≠ joinPath folder (key ++ ".json") := by
        rw [Ne, joinPath_inj (fileName_relative hother) (fileName_relative hkey)]
        simpa using hsame
      rw [Function.update_of_ne hpath, Function.update_of_ne hsame,
        get?_erase_of_ne _ htemporary, get?_put, Function.update_of_ne htemporary]

end Memory

end SdfScene
