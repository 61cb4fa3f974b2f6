import Mathlib.Data.List.Nodup
import SdfScene.Codec.Record
import SdfScene.Json.Writer
import SdfScene.Proofs.Outcome

/-!
# Records in declared order

A record that is written as an object with its fields in declared order is decoded field
by field: its values are those of the rows, a row being a field with the document of its
value, and its first fault is that of the first row with one.
-/

namespace SdfScene.Codec

open Json

variable {α : Type}

theorem find?_field {fields : List (RecordField α)}
    (hnames : (fields.map RecordField.name).Nodup) {field : RecordField α}
    (hfield : field ∈ fields) :
    fields.find? (fun other => other.name = field.name) = some field := by
  have hfound : (fields.find? fun other => other.name = field.name).isSome :=
    List.find?_isSome.mpr ⟨field, hfield, by simp⟩
  obtain ⟨other, hother⟩ := Option.isSome_iff_exists.mp hfound
  have hname : other.name = field.name := by
    simpa using List.find?_some hother
  rw [hother, List.inj_on_of_nodup_map hnames (List.mem_of_find?_eq_some hother) hfield hname]

/-- A name stays absent where another one comes. -/
private theorem lookup_append_eq_none {found : List (String × α)} {name key : String} {value : α}
    (hfound : found.lookup name = none) (hne : name ≠ key) :
    (found ++ [(key, value)]).lookup name = none := by
  simp [List.lookup_append, hfound, List.lookup_cons, beq_eq_false_iff_ne.mpr hne]

/-- The members of a record in declared order, decoded one by one and kept by name. -/
private theorem decodeMembers_rows {fields : List (RecordField α)}
    (hnames : (fields.map RecordField.name).Nodup) (reading : Reading)
    (rows : List (RecordField α × Doc)) (hfields : ∀ row ∈ rows, row.1 ∈ fields)
    (hdistinct : (rows.map fun row => row.1.name).Nodup) (found : List (String × α))
    (hnew : ∀ row ∈ rows, found.lookup row.1.name = none) :
    decodeMembers fields reading (rows.map fun row => (some row.1.name, row.2)) .closed found =
      (rows.mapM fun row => row.1.decode reading row.2) >>= fun values =>
        .ok (found ++ (rows.map fun row => row.1.name).zip values) := by
  induction rows generalizing found with
  | nil => simp [decodeMembers, check, Ending.whenRead?]
  | cons row rows ih =>
    obtain ⟨hfield, hfields⟩ := List.forall_mem_cons.mp hfields
    obtain ⟨hfresh, hnew⟩ := List.forall_mem_cons.mp hnew
    rw [List.map_cons, List.nodup_cons] at hdistinct
    rw [List.map_cons, decodeMembers, find?_field hnames hfield, hfresh, List.mapM_cons]
    simp only [Option.isSome_none, Bool.false_eq_true, ite_false, bind_assoc, pure_bind]
    refine bind_congr fun value => ?_
    rw [ih hfields hdistinct.2]
    · simp only [List.map_cons, List.zip_cons_cons, List.append_assoc, List.singleton_append]
    · exact fun other hother => lookup_append_eq_none (hnew other hother) fun h =>
        hdistinct.1 (h ▸ List.mem_map_of_mem hother)

/-- Under distinct names every value is found under its own. -/
private theorem forall₂_lookup_zip (rows : List (RecordField α × Doc)) (values : List α)
    (hlength : rows.length = values.length) (hnames : (rows.map fun row => row.1.name).Nodup)
    (found : List (String × α)) (hnew : ∀ row ∈ rows, found.lookup row.1.name = none) :
    List.Forall₂ (fun row value =>
      (found ++ (rows.map fun row => row.1.name).zip values).lookup row.1.name = some value)
      rows values := by
  induction rows generalizing values found with
  | nil =>
    rw [List.eq_nil_of_length_eq_zero hlength.symm]
    exact .nil
  | cons row rows ih =>
    obtain ⟨value, values, rfl⟩ := List.exists_cons_of_length_eq_add_one hlength.symm
    obtain ⟨hfresh, hnew⟩ := List.forall_mem_cons.mp hnew
    rw [List.map_cons, List.nodup_cons] at hnames
    refine .cons ?_ ?_
    · simp [List.lookup_append, hfresh]
    · have hrest := ih values (Nat.succ.inj hlength) hnames.2 (found ++ [(row.1.name, value)])
        fun other hother => lookup_append_eq_none (hnew other hother) fun h =>
          hnames.1 (h ▸ List.mem_map_of_mem hother)
      simpa only [List.map_cons, List.zip_cons_cons, List.append_assoc, List.singleton_append]
        using hrest

private theorem collect_rows {found : List (String × α)} (rows : List (RecordField α × Doc))
    (values : List α)
    (hfound : List.Forall₂ (fun row value => found.lookup row.1.name = some value) rows values) :
    collect found (rows.map Prod.fst) = .ok values := by
  induction hfound with
  | nil => rfl
  | cons hvalue _ ih =>
    rw [List.map_cons, collect, hvalue, Option.some_or]
    simp only [ih]
    rfl

/-- A record in declared order is decoded row by row. -/
theorem decodeRecord_rows (rows : List (RecordField α × Doc))
    (hnames : (rows.map fun row => row.1.name).Nodup) (reading : Reading) :
    decodeRecord (rows.map Prod.fst) reading
        (.ofMembers (rows.map fun row => (row.1.name, row.2))) =
      reading.enter >>= fun inner => rows.mapM fun row => row.1.decode inner row.2 := by
  have hfields : (rows.map Prod.fst).map RecordField.name = rows.map fun row => row.1.name := by
    rw [List.map_map]
    rfl
  have hmembers : (rows.map fun row => (row.1.name, row.2)).map
      (fun member => (some member.1, member.2)) = rows.map fun row => (some row.1.name, row.2) := by
    rw [List.map_map]
    rfl
  simp only [decodeRecord, Doc.ofMembers, hmembers]
  cases reading.enter with
  | error fault => rfl
  | ok inner =>
    have hdecoded := decodeMembers_rows (hfields ▸ hnames) inner rows
      (fun row hrow => List.mem_map_of_mem hrow) hnames [] fun _ _ => rfl
    simp only [bind, Except.bind, List.nil_append] at hdecoded ⊢
    rw [hdecoded]
    cases hrows : rows.mapM fun row => row.1.decode inner row.2 with
    | error fault => rfl
    | ok values =>
      refine collect_rows rows values ?_
      have hlength := (Outcome.mapM_eq_ok.mp hrows).length_eq
      clear hrows hdecoded hmembers hfields
      exact forall₂_lookup_zip rows values hlength hnames [] fun _ _ => rfl

/-- A record that was read whole is decoded row by row. -/
theorem decodeRecord_whole (rows : List (RecordField α × Doc))
    (hnames : (rows.map fun row => row.1.name).Nodup) :
    decodeRecord (rows.map Prod.fst) .whole
        (.ofMembers (rows.map fun row => (row.1.name, row.2))) =
      rows.mapM fun row => row.1.decode .whole row.2 :=
  decodeRecord_rows rows hnames .whole

/-- It gives exactly the values of its rows. -/
theorem decodeRecord_whole_eq_ok (rows : List (RecordField α × Doc))
    (hnames : (rows.map fun row => row.1.name).Nodup) (values : List α) :
    decodeRecord (rows.map Prod.fst) .whole
        (.ofMembers (rows.map fun row => (row.1.name, row.2))) = .ok values ↔
      List.Forall₂ (fun row value => row.1.decode .whole row.2 = .ok value) rows values := by
  rw [decodeRecord_whole rows hnames, Outcome.mapM_eq_ok]

end SdfScene.Codec
