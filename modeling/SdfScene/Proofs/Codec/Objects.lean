import SdfScene.Proofs.Codec.Rows

/-!
# Records in any order

What a record gives that is written as an object depends on what stands under each name, and
not on the order of the members. Every name can be read, members of other names can be passed
over, and each field has its value from the only member with its name, or stands for an absent
one.
-/

namespace SdfScene.Codec

open Json

variable {α : Type}

/-- The documents under a name in an object. -/
def valuesAt (members : List (Option String × Doc)) (name : String) : List Doc :=
  (members.filter fun member => member.1 = some name).map Prod.snd

theorem valuesAt_cons_self (name : String) (doc : Doc) (members : List (Option String × Doc)) :
    valuesAt ((some name, doc) :: members) name = doc :: valuesAt members name := by
  simp [valuesAt]

theorem valuesAt_cons_of_ne {key name : String} (h : key ≠ name) (doc : Doc)
    (members : List (Option String × Doc)) :
    valuesAt ((some key, doc) :: members) name = valuesAt members name := by
  simp [valuesAt, h]

/-- Something stands under a name exactly if a member has it. -/
theorem mem_valuesAt {members : List (Option String × Doc)} {name : String} {doc : Doc} :
    doc ∈ valuesAt members name ↔ (some name, doc) ∈ members := by
  simp [valuesAt]

/-- Leaving out members of other names changes nothing under a name. -/
theorem valuesAt_filter {p : Option String × Doc → Bool} {name : String}
    (h : ∀ doc, p (some name, doc)) (members : List (Option String × Doc)) :
    valuesAt (members.filter p) name = valuesAt members name := by
  rw [valuesAt, List.filter_filter, valuesAt]
  congr 1
  refine List.filter_congr fun member _ => ?_
  obtain ⟨key, doc⟩ := member
  by_cases hname : key = some name
  · simp [hname, h]
  · simp [hname]

/-- Under each name the same documents stand in another order of the members. -/
theorem valuesAt_perm {members others : List (Option String × Doc)} (h : members.Perm others)
    (name : String) : (valuesAt members name).Perm (valuesAt others name) :=
  (h.filter _).map _

/-- A field has a value in an object. -/
inductive RecordField.Reads (field : RecordField α) (reading : Reading)
    (members : List (Option String × Doc)) (value : α) : Prop
  /-- It is decoded from the only member with its name. -/
  | present {doc : Doc} (honly : valuesAt members field.name = [doc])
      (hvalue : field.decode reading doc = .ok value)
  /-- There is no such member, and the value stands for that. -/
  | absent (hnone : valuesAt members field.name = []) (hvalue : field.absent = some value)

/-- The members of an object give a record its values. -/
structure MembersGive (fields : List (RecordField α)) (reading : Reading)
    (members : List (Option String × Doc)) (values : List α) : Prop where
  named : ∀ member ∈ members, member.1.isSome
  passed : ∀ name doc, (some name, doc) ∈ members → name ∉ fields.map RecordField.name →
    pass reading doc = .ok ()
  reads : List.Forall₂ (fun field value => field.Reads reading members value) fields values

theorem check_eq_ok {fault : Option Category} : check fault = .ok () ↔ fault = none := by
  cases fault with
  | none => exact iff_of_true rfl rfl
  | some category => exact iff_of_false (fun h => nomatch h) (fun h => nomatch h)

/-- A reader goes on without a fault after a closing bracket only. -/
theorem whenRead?_eq_none {ending : Ending} : ending.whenRead? = none ↔ ending = .closed := by
  cases ending <;> simp [Ending.whenRead?]

/-- What is found under other names stays where one more value is found. -/
private theorem lookup_append_of_ne {name key : String} (h : name ≠ key)
    (found : List (String × α)) (value : α) :
    (found ++ [(key, value)]).lookup name = found.lookup name := by
  simp [List.lookup_append, List.lookup_cons, beq_eq_false_iff_ne.mpr h]

/-- The members after what is already found do not give a field a second value, and the only
one that they may give it is decoded. -/
private def Pending (reading : Reading) (members : List (Option String × Doc))
    (found : List (String × α)) (field : RecordField α) : Prop :=
  valuesAt members field.name = [] ∨
    (found.lookup field.name = none ∧ ∃ doc value, valuesAt members field.name = [doc] ∧
      field.decode reading doc = .ok value)

section Members

variable {fields : List (RecordField α)} (hnames : (fields.map RecordField.name).Nodup)
  {reading : Reading}

/-- No field has a name exactly if none is found under it. -/
private theorem find?_eq_none_iff {name : String} :
    fields.find? (fun field => field.name = name) = none ↔
      name ∉ fields.map RecordField.name := by
  simp [List.find?_eq_none]

include hnames

/-- What is found after all members: for each field what was found before them, if none of them
has its name, and otherwise the value of the only one. -/
private theorem decodeMembers_found {ending : Ending} (members : List (Option String × Doc))
    {found result : List (String × α)}
    (h : decodeMembers fields reading members ending found = .ok result) :
    ending = .closed ∧ (∀ member ∈ members, member.1.isSome) ∧
      (∀ name doc, (some name, doc) ∈ members → name ∉ fields.map RecordField.name →
        pass reading doc = .ok ()) ∧
      ∀ field ∈ fields,
        (valuesAt members field.name = [] ∧
          result.lookup field.name = found.lookup field.name) ∨
        (found.lookup field.name = none ∧ ∃ doc value, valuesAt members field.name = [doc] ∧
          field.decode reading doc = .ok value ∧ result.lookup field.name = some value) := by
  induction members generalizing found with
  | nil =>
    obtain ⟨_, hending, h⟩ := Outcome.bind_eq_ok.mp h
    cases h
    refine ⟨whenRead?_eq_none.mp (check_eq_ok.mp hending), ?_, ?_, fun _ _ => Or.inl ⟨rfl, rfl⟩⟩
    · exact fun _ hmember => absurd hmember List.not_mem_nil
    · exact fun _ _ hmember => absurd hmember List.not_mem_nil
  | cons member members ih =>
    obtain ⟨key, doc⟩ := member
    cases key with
    | none => cases h
    | some key =>
      rw [decodeMembers] at h
      cases hfind : fields.find? fun field => field.name = key with
      | none =>
        rw [hfind] at h
        obtain ⟨_, hpass, h⟩ := Outcome.bind_eq_ok.mp h
        obtain ⟨hclosed, hnamed, hpassed, hfields⟩ := ih h
        have hother := find?_eq_none_iff.mp hfind
        refine ⟨hclosed, List.forall_mem_cons.mpr ⟨rfl, hnamed⟩, fun name doc hmember hname => ?_,
          fun field hfield => ?_⟩
        · rcases List.mem_cons.mp hmember with hsame | hmember
          · cases hsame
            exact hpass
          · exact hpassed name doc hmember hname
        · have hne : key ≠ field.name := fun hsame =>
            hother (hsame ▸ List.mem_map_of_mem hfield)
          rw [valuesAt_cons_of_ne hne]
          exact hfields field hfield
      | some known =>
        rw [hfind] at h
        have hknown := List.mem_of_find?_eq_some hfind
        have hkey : known.name = key := by simpa using List.find?_some hfind
        subst hkey
        dsimp only at h
        by_cases htwice : (found.lookup known.name).isSome
        · rw [if_pos htwice] at h
          cases h
        · rw [if_neg htwice] at h
          obtain ⟨value, hvalue, h⟩ := Outcome.bind_eq_ok.mp h
          obtain ⟨hclosed, hnamed, hpassed, hfields⟩ := ih h
          have hfresh : found.lookup known.name = none := Option.not_isSome_iff_eq_none.mp htwice
          have hadded : (found ++ [(known.name, value)]).lookup known.name = some value := by
            simp [List.lookup_append, hfresh]
          refine ⟨hclosed, List.forall_mem_cons.mpr ⟨rfl, hnamed⟩,
            fun name doc hmember hname => ?_, fun field hfield => ?_⟩
          · rcases List.mem_cons.mp hmember with hsame | hmember
            · cases hsame
              exact absurd (List.mem_map_of_mem hknown) hname
            · exact hpassed name doc hmember hname
          · by_cases hname : known.name = field.name
            · obtain rfl : known = field :=
                List.inj_on_of_nodup_map hnames hknown hfield hname
              rcases hfields known hfield with ⟨hnone, hresult⟩ | ⟨hlookup, -⟩
              · refine Or.inr ⟨hfresh, doc, value, ?_, hvalue, hresult.trans hadded⟩
                rw [valuesAt_cons_self, hnone]
              · rw [hadded] at hlookup
                cases hlookup
            · rw [valuesAt_cons_of_ne hname, ← lookup_append_of_ne (Ne.symm hname) found value]
              exact hfields field hfield

/-- Members of which none is at fault are decoded. -/
private theorem exists_decodeMembers (members : List (Option String × Doc))
    (hnamed : ∀ member ∈ members, member.1.isSome)
    (hpassed : ∀ name doc, (some name, doc) ∈ members → name ∉ fields.map RecordField.name →
      pass reading doc = .ok ())
    (found : List (String × α))
    (hfields : ∀ field ∈ fields, Pending reading members found field) :
    ∃ result, decodeMembers fields reading members .closed found = .ok result := by
  induction members generalizing found with
  | nil => exact ⟨found, rfl⟩
  | cons member members ih =>
    obtain ⟨key, doc⟩ := member
    obtain ⟨hname, hrestNamed⟩ := List.forall_mem_cons.mp hnamed
    obtain ⟨key, rfl⟩ := Option.isSome_iff_exists.mp hname
    have hrest : ∀ name doc, (some name, doc) ∈ members → name ∉ fields.map RecordField.name →
        pass reading doc = .ok () :=
      fun name doc hmember => hpassed name doc (List.mem_cons_of_mem _ hmember)
    rw [decodeMembers]
    by_cases hkey : key ∈ fields.map RecordField.name
    · obtain ⟨known, hknown, rfl⟩ := List.mem_map.mp hkey
      rw [find?_field hnames hknown]
      rcases hfields known hknown with hnone | ⟨hfresh, only, value, honly, hvalue⟩
      · rw [valuesAt_cons_self] at hnone
        cases hnone
      · rw [valuesAt_cons_self] at honly
        obtain ⟨rfl, hnone⟩ := List.cons.inj honly
        have hnew : ∀ field ∈ fields,
            Pending reading members (found ++ [(known.name, value)]) field := by
          intro field hfield
          by_cases hname : known.name = field.name
          · exact Or.inl (hname ▸ hnone)
          · have h := hfields field hfield
            rwa [Pending, valuesAt_cons_of_ne hname,
              ← lookup_append_of_ne (Ne.symm hname) found value] at h
        obtain ⟨result, hresult⟩ := ih hrestNamed hrest _ hnew
        refine ⟨result, ?_⟩
        rw [hfresh]
        exact Outcome.bind_eq_ok.mpr ⟨value, hvalue, hresult⟩
    · rw [find?_eq_none_iff.mpr hkey]
      have hnew : ∀ field ∈ fields, Pending reading members found field := by
        intro field hfield
        have hne : key ≠ field.name := fun hsame => hkey (hsame ▸ List.mem_map_of_mem hfield)
        have h := hfields field hfield
        rwa [Pending, valuesAt_cons_of_ne hne] at h
      obtain ⟨result, hresult⟩ := ih hrestNamed hrest found hnew
      exact ⟨result, Outcome.bind_eq_ok.mpr
        ⟨(), hpassed key doc List.mem_cons_self hkey, hresult⟩⟩

omit hnames in
private theorem collect_eq_ok {found : List (String × α)} (fields : List (RecordField α))
    {values : List α} :
    collect found fields = .ok values ↔
      List.Forall₂ (fun field value => (found.lookup field.name).or field.absent = some value)
        fields values := by
  induction fields generalizing values with
  | nil =>
    rw [collect, List.forall₂_nil_left_iff]
    exact ⟨fun h => (Except.ok.inj h).symm, fun h => h ▸ rfl⟩
  | cons field fields ih =>
    rw [collect, List.forall₂_cons_left_iff]
    cases hfound : (found.lookup field.name).or field.absent with
    | none =>
      constructor
      · intro h
        cases h
      · rintro ⟨_, _, hnone, -⟩
        cases hnone
    | some first =>
      dsimp only
      rw [Outcome.map_eq_ok]
      constructor
      · rintro ⟨rest, hrest, rfl⟩
        exact ⟨first, rest, rfl, ih.mp hrest, rfl⟩
      · rintro ⟨_, rest, hfirst, hrest, rfl⟩
        cases hfirst
        exact ⟨rest, ih.mpr hrest, rfl⟩

/-- A record that is written as an object is decoded exactly as its members give it. -/
theorem decodeRecord_object_eq_ok {members : List (Option String × Doc)} {ending : Ending}
    {values : List α} :
    decodeRecord fields reading (.object members ending) = .ok values ↔
      ending = .closed ∧ ∃ inner, reading.enter = .ok inner ∧
        MembersGive fields inner members values := by
  rw [decodeRecord, Outcome.bind_eq_ok]
  constructor
  · rintro ⟨inner, hinner, h⟩
    obtain ⟨found, hfound, hvalues⟩ := Outcome.bind_eq_ok.mp h
    obtain ⟨hclosed, hnamed, hpassed, hfields⟩ := decodeMembers_found hnames members hfound
    refine ⟨hclosed, inner, hinner, hnamed, hpassed, ?_⟩
    rw [collect_eq_ok, List.forall₂_iff_zip] at hvalues
    refine List.forall₂_iff_zip.mpr ⟨hvalues.1, fun {field value} hmem => ?_⟩
    have hvalue := hvalues.2 hmem
    rcases hfields field (List.of_mem_zip hmem).1 with
      ⟨hnone, hlookup⟩ | ⟨-, doc, first, honly, hdecode, hlookup⟩
    · rw [hlookup] at hvalue
      exact .absent hnone hvalue
    · rw [hlookup] at hvalue
      cases hvalue
      exact .present honly hdecode
  · rintro ⟨rfl, inner, hinner, hnamed, hpassed, hreads⟩
    obtain ⟨hlength, hreads⟩ := List.forall₂_iff_zip.mp hreads
    have heach : ∀ field ∈ fields, ∃ value, field.Reads inner members value := by
      intro field hfield
      obtain ⟨i, hi, rfl⟩ := List.mem_iff_getElem.mp hfield
      have hmem : (fields[i], values[i]) ∈ fields.zip values := by
        have hplace : i < (fields.zip values).length := by
          rw [List.length_zip]
          exact Nat.lt_min.mpr ⟨hi, hlength ▸ hi⟩
        exact List.getElem_zip (h := hplace) ▸ List.getElem_mem hplace
      exact ⟨values[i], hreads hmem⟩
    obtain ⟨found, hfound⟩ := exists_decodeMembers hnames members hnamed hpassed [] <| by
      intro field hfield
      obtain ⟨value, hvalue⟩ := heach field hfield
      cases hvalue with
      | present honly hvalue => exact Or.inr ⟨rfl, _, value, honly, hvalue⟩
      | absent hnone _ => exact Or.inl hnone
    refine ⟨inner, hinner, Outcome.bind_eq_ok.mpr ⟨found, hfound, ?_⟩⟩
    obtain ⟨-, -, -, hfields⟩ := decodeMembers_found hnames members hfound
    rw [collect_eq_ok]
    refine List.forall₂_iff_zip.mpr ⟨hlength, fun {field value} hmem => ?_⟩
    rcases hfields field (List.of_mem_zip hmem).1 with
      ⟨hnone, hlookup⟩ | ⟨-, doc, first, honly, hdecode, hlookup⟩
    · rw [hlookup]
      cases hreads hmem with
      | present hdoc _ => cases hnone.symm.trans hdoc
      | absent _ hvalue => exact hvalue
    · rw [hlookup]
      cases hreads hmem with
      | present hdoc hvalue =>
        cases honly.symm.trans hdoc
        cases hdecode.symm.trans hvalue
        rfl
      | absent hnone _ => cases honly.symm.trans hnone

end Members

end SdfScene.Codec
