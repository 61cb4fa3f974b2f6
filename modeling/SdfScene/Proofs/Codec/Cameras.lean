import SdfScene.Codec.Camera
import SdfScene.Proofs.Codec.Numbers
import SdfScene.Proofs.Codec.Objects

/-!
# What counts in a camera document

A camera is decoded from the vectors `loc`, `at` and `up` of its document. The derived vectors
`dir` and `right` must be vectors where they stand, but what they are does not count.
-/

namespace SdfScene

open Json Codec

/-- A text is an object, with nothing but blanks after it. -/
def Json.Doc.IsObject (text : String) (members : List (Option String × Doc)) : Prop :=
  ∃ rest, Doc.ofText text.toList = (.object members .closed, rest) ∧ hasMore rest = false

theorem Json.Doc.IsObject.fst_ofText {text : String} {members : List (Option String × Doc)}
    (h : IsObject text members) : (Doc.ofText text.toList).1 = .object members .closed := by
  obtain ⟨rest, hread, -⟩ := h
  rw [hread]

theorem Json.Doc.Written.isObject {members : List (String × Doc)}
    (h : (Doc.ofMembers members).Written) :
    IsObject (Doc.ofMembers members).encoded
      (members.map fun member => (some member.1, member.2)) := by
  refine ⟨some [], ?_, by simp [hasMore, skipSpace]⟩
  rw [h.ofText_encoded]
  rfl

namespace Codec

/-- A tag is checked: under no other one a wrapper is accepted. -/
theorem decodeEnvelope_tag_eq {α : Type} {tag other : Tag} {payload : Decoder α}
    {reading : Reading} {doc : Doc} {value found : α}
    (h : decodeEnvelope tag payload reading doc = .ok value)
    (hother : decodeEnvelope other payload reading doc = .ok found) : tag = other := by
  obtain ⟨parts, hparts, h⟩ := Outcome.bind_eq_ok.mp h
  obtain ⟨_, hsame, hother⟩ := Outcome.bind_eq_ok.mp hother
  cases hparts.symm.trans hsame
  split at h
  · split at h
    · next hfound =>
      rw [← hfound]
      dsimp only at hother
      split at hother
      · assumption
      · cases hother
    · cases h
  · cases h

/-- A vector stands under one tag only. -/
theorem decodeVector_tag_eq {tag other : Tag} {reading : Reading} {doc : Doc} {v w : Vec3}
    (h : decodeVector tag reading doc = .ok v)
    (hother : decodeVector other reading doc = .ok w) : tag = other := by
  obtain ⟨_, hv, -⟩ := Outcome.bind_eq_ok.mp h
  obtain ⟨_, hw, -⟩ := Outcome.bind_eq_ok.mp hother
  exact decodeEnvelope_tag_eq hv hw

end Codec

namespace Camera

/-- How the vectors of a camera document are read. -/
def reading : Reading := .direct (depthLimit - 1)

/-- The only member with a name is a vector. -/
def GivesVector (members : List (Option String × Doc)) (name : String) (v : Vec3) : Prop :=
  ∃ doc, valuesAt members name = [doc] ∧ decodeVector .vector reading doc = .ok v

/-- The names of the derived vectors. -/
def derivedNames : List String := ["dir", "right"]

/-- The members that do not stand for derived vectors. -/
def besideDerived (members : List (Option String × Doc)) : List (Option String × Doc) :=
  members.filter fun member => member.1 ∉ derivedNames.map some

theorem valuesAt_besideDerived {name : String} (h : name ∉ derivedNames)
    (members : List (Option String × Doc)) :
    valuesAt (besideDerived members) name = valuesAt members name :=
  valuesAt_filter (fun _ => by simpa using h) members

/-- What a camera document must be for a camera to be decoded from it. -/
structure DocumentOf (members : List (Option String × Doc)) (camera : Camera) : Prop where
  named : ∀ member ∈ members, member.1.isSome
  passed : ∀ name doc, (some name, doc) ∈ members →
    name ∉ cameraFields.map RecordField.name → pass reading doc = .ok ()
  eye : GivesVector members "loc" camera.eye
  target : GivesVector members "at" camera.target
  up : GivesVector members "up" camera.up
  derived : ∀ name ∈ derivedNames, valuesAt members name = [] ∨ ∃ v, GivesVector members name v

private theorem reads_required {members : List (Option String × Doc)} {name : String} {v : Vec3} :
    (RecordField.required name (decodeVector .vector)).Reads reading members v ↔
      GivesVector members name v := by
  constructor
  · intro h
    cases h with
    | present honly hvalue => exact ⟨_, honly, hvalue⟩
    | absent _ hvalue => cases hvalue
  · rintro ⟨doc, honly, hvalue⟩
    exact .present honly hvalue

private theorem exists_reads_optional {members : List (Option String × Doc)} {name : String} :
    (∃ v, (RecordField.optional name (decodeVector .vector) .zero).Reads reading members v) ↔
      valuesAt members name = [] ∨ ∃ v, GivesVector members name v := by
  constructor
  · rintro ⟨v, h⟩
    cases h with
    | present honly hvalue => exact Or.inr ⟨v, _, honly, hvalue⟩
    | absent hnone _ => exact Or.inl hnone
  · rintro (hnone | ⟨v, doc, honly, hvalue⟩)
    · exact ⟨.zero, .absent hnone rfl⟩
    · exact ⟨v, .present honly hvalue⟩

/-- The members of an object are decoded to a camera exactly if they are a document of it. -/
theorem decodeCamera_object_eq_ok {members : List (Option String × Doc)} {ending : Ending}
    {camera : Camera} :
    decodeCamera (.direct depthLimit) (.object members ending) = .ok camera ↔
      ending = .closed ∧ DocumentOf members camera := by
  have hnames : (cameraFields.map RecordField.name).Nodup := by decide
  have hrecord : decodeCamera (.direct depthLimit) (.object members ending) = .ok camera ↔
      ∃ direction right, decodeRecord cameraFields (.direct depthLimit) (.object members ending) =
        .ok [camera.eye, camera.target, camera.up, direction, right] := by
    rw [decodeCamera, Outcome.bind_eq_ok]
    constructor
    · rintro ⟨values, hvalues, h⟩
      split at h
      · cases h
        exact ⟨_, _, hvalues⟩
      · cases h
    · rintro ⟨direction, right, hvalues⟩
      exact ⟨_, hvalues, congrArg Except.ok camera.new_given⟩
  have hderived : (∀ name ∈ derivedNames,
      valuesAt members name = [] ∨ ∃ v, GivesVector members name v) ↔ _ ∧ _ :=
    List.forall_mem_cons.trans (and_congr_right fun _ => List.forall_mem_singleton)
  rw [hrecord]
  simp only [decodeRecord_object_eq_ok hnames]
  constructor
  · rintro ⟨direction, right, rfl, inner, hinner, hnamed, hpassed, hreads⟩
    obtain rfl : reading = inner := Except.ok.inj hinner
    simp only [cameraFields, List.forall₂_cons, List.Forall₂.nil, and_true, reads_required]
      at hreads
    obtain ⟨heye, htarget, hup, hdirection, hright⟩ := hreads
    exact ⟨rfl, hnamed, hpassed, heye, htarget, hup, hderived.mpr
      ⟨exists_reads_optional.mp ⟨direction, hdirection⟩,
        exists_reads_optional.mp ⟨right, hright⟩⟩⟩
  · rintro ⟨rfl, hdocument⟩
    obtain ⟨hfirst, hsecond⟩ := hderived.mp hdocument.derived
    obtain ⟨direction, hdirection⟩ := exists_reads_optional.mpr hfirst
    obtain ⟨right, hright⟩ := exists_reads_optional.mpr hsecond
    refine ⟨direction, right, rfl, reading, rfl, hdocument.named, hdocument.passed, ?_⟩
    simp only [cameraFields, List.forall₂_cons, List.Forall₂.nil, and_true, reads_required]
    exact ⟨hdocument.eye, hdocument.target, hdocument.up, hdirection, hright⟩

/-- A text that is an object is decoded to a camera exactly if it is a document of it. -/
theorem ofDocument_object_eq_ok {text : String} {members : List (Option String × Doc)}
    {ending : Ending} (hdoc : (Doc.ofText text.toList).1 = .object members ending)
    {camera : Camera} :
    ofDocument text = .ok camera ↔
      Doc.IsObject text members ∧ DocumentOf members camera := by
  rw [ofDocument, decodeAll_eq_ok, hdoc, decodeCamera_object_eq_ok]
  constructor
  · rintro ⟨⟨rfl, hdocument⟩, hmore⟩
    exact ⟨⟨_, Prod.ext hdoc rfl, hmore⟩, hdocument⟩
  · rintro ⟨⟨rest, hobject, hmore⟩, hdocument⟩
    rw [hobject] at hdoc ⊢
    cases hdoc
    exact ⟨⟨rfl, hdocument⟩, hmore⟩

/-- Other members beside the derived vectors do the same, as long as what they derive are
vectors. -/
theorem DocumentOf.of_besideDerived {members others : List (Option String × Doc)}
    {camera : Camera} (h : DocumentOf members camera)
    (hsame : (besideDerived others).Perm (besideDerived members))
    (hderived : ∀ name ∈ derivedNames,
      valuesAt others name = [] ∨ ∃ v, GivesVector others name v) :
    DocumentOf others camera := by
  have hkept : ∀ member ∈ others, member.1 ∉ derivedNames.map some → member ∈ members := by
    intro member hmember hname
    have hbeside : member ∈ besideDerived others :=
      List.mem_filter.mpr ⟨hmember, decide_eq_true hname⟩
    exact (List.mem_filter.mp (hsame.subset hbeside)).1
  have hvector : ∀ {name v}, name ∉ derivedNames → GivesVector members name v →
      GivesVector others name v := by
    rintro name v hname ⟨doc, honly, hvalue⟩
    refine ⟨doc, ?_, hvalue⟩
    have hperm := valuesAt_perm hsame name
    rwa [valuesAt_besideDerived hname, valuesAt_besideDerived hname, honly,
      List.perm_singleton] at hperm
  refine ⟨fun member hmember => ?_, fun name doc hmember hname => ?_, hvector (by decide) h.eye,
    hvector (by decide) h.target, hvector (by decide) h.up, hderived⟩
  · by_cases hname : member.1 ∈ derivedNames.map some
    · obtain ⟨name, -, hsome⟩ := List.mem_map.mp hname
      exact hsome ▸ rfl
    · exact h.named member (hkept member hmember hname)
  · have hknown : derivedNames ⊆ cameraFields.map RecordField.name := by decide
    refine h.passed name doc (hkept _ hmember fun hderivedName => hname ?_) hname
    obtain ⟨other, hother, hsome⟩ := List.mem_map.mp hderivedName
    cases hsome
    exact hknown hother

/-- The document of a camera with its derived vectors computed in some way. -/
def documentWith (direction right : Camera → Vec3) (camera : Camera) : Doc :=
  .ofMembers [("loc", vectorDoc .vector camera.eye), ("at", vectorDoc .vector camera.target),
    ("up", vectorDoc .vector camera.up), ("dir", vectorDoc .vector (direction camera)),
    ("right", vectorDoc .vector (right camera))]

section Derived

variable (direction right : Camera → Vec3) (camera : Camera)

/-- The numbers of a camera and of its derived vectors. -/
def numbersWith : List Single :=
  camera.eye.numbers ++ camera.target.numbers ++ camera.up.numbers ++
    (direction camera).numbers ++ (right camera).numbers

theorem written_documentWith : (documentWith direction right camera).Written :=
  .object (by simp [written_vectorDoc])

/-- However the derived vectors are computed, a camera whose numbers are finite is decoded from
its document as itself. -/
theorem ofDocument_documentWith (hfinite : ∀ x ∈ numbersWith direction right camera, x.isFinite) :
    ofDocument (documentWith direction right camera).encoded = .ok camera := by
  simp only [numbersWith, List.forall_mem_append] at hfinite
  obtain ⟨⟨⟨⟨heye, htarget⟩, hup⟩, hdirection⟩, hright⟩ := hfinite
  let rows : List (RecordField Vec3 × Doc) := cameraFields.zip
    [vectorDoc .vector camera.eye, vectorDoc .vector camera.target, vectorDoc .vector camera.up,
      vectorDoc .vector (direction camera), vectorDoc .vector (right camera)]
  have hrows : decodeRecord cameraFields (.direct depthLimit) (documentWith direction right camera) =
      rows.mapM fun row => row.1.decode reading row.2 :=
    decodeRecord_rows rows (by simp [rows, cameraFields, RecordField.required,
      RecordField.optional]) (.direct depthLimit)
  have hvalues : (rows.mapM fun row => row.1.decode reading row.2) =
      .ok [camera.eye, camera.target, camera.up, direction camera, right camera] := by
    rw [Outcome.mapM_eq_ok]
    exact .cons (decodeVector_direct .vector heye 124) <|
      .cons (decodeVector_direct .vector htarget 124) <|
      .cons (decodeVector_direct .vector hup 124) <|
      .cons (decodeVector_direct .vector hdirection 124) <|
      .cons (decodeVector_direct .vector hright 124) .nil
  rw [ofDocument, (written_documentWith direction right camera).decodeAll_encoded, decodeCamera,
    hrows, hvalues]
  exact congrArg Except.ok camera.new_given

end Derived

end Camera

end SdfScene
