import SdfScene.Proofs.Codec.Objects
import SdfScene.Proofs.Json.Shuffled

/-!
# Records that differ in their parts

Two documents of a record may differ in the order of their members and in what stands under a
name, or at its place in an array. If every field follows the difference of its part, the
record follows that of the whole.
-/

namespace SdfScene.Codec

open Json

variable {α β : Type}

/-- A decoder follows a change of documents by a change of the values that it gives. -/
def Decoder.Follows (decode : Decoder α) (R : Doc → Doc → Prop) (f : α → α) : Prop :=
  ∀ reading doc other value, R doc other → decode reading doc = .ok value →
    decode reading other = .ok (f value)

/-- A converted value is followed where the conversion goes with the changes. -/
theorem Decoder.Follows.map {decode : Decoder β} {R : Doc → Doc → Prop} {f : α → α} {g : β → β}
    (h : Follows decode R g) {convert : β → α}
    (hconvert : ∀ value, f (convert value) = convert (g value)) :
    Follows (fun reading doc => (decode reading doc).map convert) R f := by
  intro reading doc other value hdoc hvalue
  obtain ⟨inner, hinner, rfl⟩ := Outcome.map_eq_ok.mp hvalue
  exact Outcome.map_eq_ok.mpr
    ⟨g inner, h reading doc other inner hdoc hinner, (hconvert inner).symm⟩

/-- What can be passed over or read whole still can. -/
theorem pass_of_intact {reading : Reading} {doc other : Doc} (h : doc.Intact other)
    (hpass : pass reading doc = .ok ()) : pass reading other = .ok () := by
  cases reading with
  | whole => rfl
  | direct levels => exact check_eq_ok.mpr (h.skip (check_eq_ok.mp hpass))

theorem readWhole_of_intact {reading : Reading} {doc other : Doc} (h : doc.Intact other)
    (hread : readWhole reading doc = .ok ()) : readWhole reading other = .ok () := by
  cases reading with
  | whole => rfl
  | direct levels => exact check_eq_ok.mpr (h.read levels (check_eq_ok.mp hread))

variable {R : String → Doc → Doc → Prop}

/-- The members of two objects differ in their order, and where one stands alone under its name
as `R` has it. -/
structure MembersAlike (R : String → Doc → Doc → Prop)
    (members others : List (Option String × Doc)) : Prop where
  each : ∀ other ∈ others, ∃ member ∈ members,
    other.1 = member.1 ∧ member.2.Intact other.2
  only : ∀ name doc, valuesAt members name = [doc] →
    ∃ other, valuesAt others name = [other] ∧ R name doc other

/-- The items of two arrays differ as `R` has it for the names of their places. -/
inductive ItemsAlike (R : String → Doc → Doc → Prop) :
    List String → List Doc → List Doc → Prop
  | nil (names : List String) : ItemsAlike R names [] []
  | cons {name : String} {names : List String} {doc other : Doc} {docs others : List Doc}
      (hintact : doc.Intact other) (hhead : R name doc other)
      (htail : ItemsAlike R names docs others) :
      ItemsAlike R (name :: names) (doc :: docs) (other :: others)
  /-- Items beyond the last name. -/
  | beyond {doc other : Doc} {docs others : List Doc} (hintact : doc.Intact other)
      (htail : ItemsAlike R [] docs others) : ItemsAlike R [] (doc :: docs) (other :: others)

/-- Two documents of a record, in whichever form, differ as `R` has it for the names. -/
inductive RecordAlike (R : String → Doc → Doc → Prop) (names : List String) :
    Doc → Doc → Prop
  | object {members others : List (Option String × Doc)} (ending : Ending)
      (h : MembersAlike R members others) :
      RecordAlike R names (.object members ending) (.object others ending)
  | array {items others : List Doc} (ending : Ending) (h : ItemsAlike R names items others) :
      RecordAlike R names (.array items ending) (.array others ending)

/-- Nothing stands under a name where nothing did. -/
theorem MembersAlike.none {members others : List (Option String × Doc)}
    (h : MembersAlike R members others) {name : String} (hnone : valuesAt members name = []) :
    valuesAt others name = [] := by
  refine List.eq_nil_iff_forall_not_mem.mpr fun other hother => ?_
  obtain ⟨⟨key, doc⟩, hmember, hkey, -⟩ := h.each _ (mem_valuesAt.mp hother)
  cases hkey
  have hmem := mem_valuesAt.mpr hmember
  rw [hnone] at hmem
  cases hmem

/-- Members in another order. -/
theorem MembersAlike.of_perm {members others : List (Option String × Doc)}
    (h : members.Perm others) (hrefl : ∀ name doc, R name doc doc) :
    MembersAlike R members others := by
  refine ⟨fun other hother => ⟨other, h.symm.subset hother, rfl, .refl _⟩,
    fun name doc honly => ⟨doc, ?_, hrefl name doc⟩⟩
  have hperm := valuesAt_perm h name
  rw [honly, List.singleton_perm] at hperm
  exact hperm.symm

/-- Members with another value in one of them. -/
theorem MembersAlike.middle {doc other : Doc} (hintact : doc.Intact other) (key : String)
    (hkey : R key doc other) (hothers : ∀ name, name ≠ key → ∀ doc, R name doc doc)
    (front back : List (Option String × Doc)) :
    MembersAlike R (front ++ (some key, doc) :: back) (front ++ (some key, other) :: back) := by
  refine ⟨hintact.exists_member (some key) front back, fun name only honly => ?_⟩
  by_cases hname : name = key
  · subst hname
    have hsplit : ∀ value, valuesAt (front ++ (some name, value) :: back) name =
        valuesAt front name ++ value :: valuesAt back name := by
      intro value
      simp [valuesAt]
    rw [hsplit, List.append_eq_singleton_iff] at honly
    rcases honly with ⟨hfront, hback⟩ | ⟨-, hback⟩
    · obtain ⟨rfl, hnone⟩ := List.cons.inj hback
      exact ⟨other, by rw [hsplit, hfront, hnone, List.nil_append], hkey⟩
    · cases hback
  · have hsame : ∀ value, valuesAt (front ++ (some key, value) :: back) name =
        valuesAt front name ++ valuesAt back name := by
      intro value
      simp [valuesAt, Ne.symm hname]
    exact ⟨only, by rw [hsame, ← hsame doc, honly], hothers name hname only⟩

/-- The same items. -/
theorem ItemsAlike.refl (names : List String) (h : ∀ name ∈ names, ∀ doc, R name doc doc)
    (items : List Doc) : ItemsAlike R names items items := by
  induction items generalizing names with
  | nil => exact .nil names
  | cons item items ih =>
    cases names with
    | nil => exact .beyond (.refl item) (ih [] h)
    | cons name names =>
      obtain ⟨hname, hnames⟩ := List.forall_mem_cons.mp h
      exact .cons (.refl item) (hname item) (ih names hnames)

/-- Items with another one in the place of one of them. -/
theorem ItemsAlike.middle {doc other : Doc} (hintact : doc.Intact other)
    (hdoc : ∀ name, R name doc other) (hrefl : ∀ name doc, R name doc doc) (names : List String)
    (front back : List Doc) :
    ItemsAlike R names (front ++ doc :: back) (front ++ other :: back) := by
  have hback : ∀ names, ItemsAlike R names back back := fun names =>
    .refl names (fun name _ => hrefl name) back
  induction front generalizing names with
  | nil =>
    cases names with
    | nil => exact .beyond hintact (hback [])
    | cons name names => exact .cons hintact (hdoc name) (hback names)
  | cons item front ih =>
    cases names with
    | nil => exact .beyond (.refl item) (ih [])
    | cons name names => exact .cons (.refl item) (hrefl name item) (ih names)

/-- A field follows the change of its part; what stands for an absent one stays. -/
structure RecordField.Follows (field : RecordField α) (R : String → Doc → Doc → Prop)
    (f : α → α) : Prop where
  decoded : Decoder.Follows field.decode (R field.name) f
  absent : ∀ value, field.absent = some value → f value = value

theorem RecordField.Follows.required {name : String} {decode : Decoder α} {f : α → α}
    (h : Decoder.Follows decode (R name) f) : (RecordField.required name decode).Follows R f :=
  ⟨h, fun _ hvalue => nomatch hvalue⟩

section Record

variable {f : α → α} {fields : List (RecordField α)}

/-- The items of a record follow the changes at their places. -/
theorem decodeItems_follows {outer inner : Reading} {ending : Ending}
    (fields : List (RecordField α)) (hfields : ∀ field ∈ fields, field.Follows R f)
    {items others : List Doc} (h : ItemsAlike R (fields.map RecordField.name) items others)
    {values : List α} (hvalues : decodeItems outer inner fields items ending = .ok values) :
    decodeItems outer inner fields others ending = .ok (values.map f) := by
  induction fields generalizing items others values with
  | nil =>
    cases h with
    | nil =>
      obtain ⟨_, hending, hvalues⟩ := Outcome.bind_eq_ok.mp hvalues
      cases hvalues
      exact Outcome.bind_eq_ok.mpr ⟨(), hending, rfl⟩
    | beyond => cases hvalues
  | cons field fields ih =>
    obtain ⟨hfield, hrest⟩ := List.forall_mem_cons.mp hfields
    cases h with
    | nil =>
      obtain ⟨_, hending, hvalues⟩ := Outcome.bind_eq_ok.mp hvalues
      refine Outcome.bind_eq_ok.mpr ⟨(), hending, ?_⟩
      cases habsent : field.absent with
      | none =>
        rw [habsent] at hvalues
        cases hvalues
      | some value =>
        rw [habsent] at hvalues
        obtain ⟨rest, hitems, rfl⟩ := Outcome.map_eq_ok.mp hvalues
        refine Outcome.map_eq_ok.mpr ⟨rest.map f, ih hrest (.nil _) hitems, ?_⟩
        rw [List.map_cons, hfield.absent value habsent]
    | cons _ hhead htail =>
      obtain ⟨value, hvalue, hvalues⟩ := Outcome.bind_eq_ok.mp hvalues
      obtain ⟨rest, hitems, rfl⟩ := Outcome.map_eq_ok.mp hvalues
      refine Outcome.bind_eq_ok.mpr ⟨f value, hfield.decoded _ _ _ _ hhead hvalue, ?_⟩
      exact Outcome.map_eq_ok.mpr ⟨rest.map f, ih hrest htail hitems, rfl⟩

/-- A record follows the changes of its parts. -/
theorem decodeRecord_follows (hnames : (fields.map RecordField.name).Nodup)
    (hfields : ∀ field ∈ fields, field.Follows R f) :
    Decoder.Follows (decodeRecord fields) (RecordAlike R (fields.map RecordField.name))
      (List.map f) := by
  intro reading doc other values hdoc hvalues
  cases hdoc with
  | object ending h =>
    obtain ⟨rfl, inner, hinner, hnamed, hpassed, hreads⟩ :=
      (decodeRecord_object_eq_ok hnames).mp hvalues
    refine (decodeRecord_object_eq_ok hnames).mpr ⟨rfl, inner, hinner, fun other hother => ?_,
      fun name other hother hname => ?_, ?_⟩
    · obtain ⟨member, hmember, hkey, -⟩ := h.each other hother
      exact hkey ▸ hnamed member hmember
    · obtain ⟨⟨key, doc⟩, hmember, hkey, hintact⟩ := h.each _ hother
      cases hkey
      exact pass_of_intact hintact (hpassed name doc hmember hname)
    · refine List.forall₂_map_right_iff.mpr
        (((List.forall₂_and_left _ _).mpr ⟨hfields, hreads⟩).imp ?_)
      rintro field value ⟨hfield, hread⟩
      cases hread with
      | present honly hvalue =>
        obtain ⟨changed, hchanged, hR⟩ := h.only _ _ honly
        exact .present hchanged (hfield.decoded _ _ _ _ hR hvalue)
      | absent hnone hvalue =>
        rw [hfield.absent value hvalue]
        exact .absent (h.none hnone) hvalue
  | array ending h =>
    obtain ⟨inner, hinner, hvalues⟩ := Outcome.bind_eq_ok.mp hvalues
    exact Outcome.bind_eq_ok.mpr ⟨inner, hinner, decodeItems_follows fields hfields h hvalues⟩

end Record

end SdfScene.Codec
