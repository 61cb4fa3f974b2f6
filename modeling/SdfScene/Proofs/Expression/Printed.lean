import SdfScene.Expression.Basic
import SdfScene.Proofs.Expression.Calls
import SdfScene.Proofs.Number.Digits

/-!
# What an expression prints

A drawn expression prints a term: nested combinations over leaves in which each number is
the text it is printed as. The words and marks of its text are those of the term, and no
two terms have the same, nor begin with the same ones.
-/

namespace SdfScene

open Code

/-! ## Terms -/

/-- A vector as it is printed. -/
structure PrintedVec where
  x : String
  y : String
  z : String
  deriving DecidableEq

/-- A transform as it is printed. -/
structure PrintedTransform where
  position : PrintedVec
  rotation : PrintedVec
  scale : String
  deriving DecidableEq

/-- A parameter as it is printed. -/
inductive PrintedParam where
  | scalar (x : String)
  | vector (v : PrintedVec)
  deriving DecidableEq

/-- A nested binary combination with the parts that are printed. A leaf has the transform
above its own only if that is not the identity. -/
inductive LoweredTerm where
  | leaf (kind : PrimitiveKind) (own : PrintedTransform) (parent : Option PrintedTransform)
    (params : List PrintedParam) (color : PrintedVec)
  | join (kind : CombinatorKind) (left right : LoweredTerm) (smoothness : String)
  deriving DecidableEq

/-- The printed components of a vector. -/
def Vec3.printed (v : Vec3) : PrintedVec := ⟨v.x.text, v.y.text, v.z.text⟩

/-- The printed parts of a transform. -/
def Transform.printed (t : Transform) : PrintedTransform :=
  ⟨t.position.printed, t.rotation.printed, t.scale.text⟩

/-- The printed parts of a transform that is not the identity. -/
def Transform.printed? (t : Transform) : Option PrintedTransform :=
  if t.isIdentity then none else some t.printed

/-- A printed parameter. -/
def Param.printed : Param → PrintedParam
  | scalar x => .scalar x.text
  | vector v => .vector v.printed

/-- The term that an expression prints, if there is no code in it that is emitted as it is. -/
def Expression.term? : Expression → Option LoweredTerm
  | leaf body own parent color =>
    some (.leaf body.kind own.printed parent.printed? (body.params.map Param.printed)
      color.printed)
  | verbatim _ => none
  | join kind left right smoothness => do
    let left ← left.term?
    let right ← right.term?
    pure (.join kind left right smoothness.text)

/-! ## The words and marks of a term -/

/-- The words and marks of a vector. -/
def PrintedVec.tokens (v : PrintedVec) : List Token :=
  call "vec3".toList [.word v.x.toList] [[.word v.y.toList], [.word v.z.toList]]

/-- The words and marks of an angle in degrees. -/
def angleTokens (x : String) : List Token := call "D2R".toList [.word x.toList] []

namespace PrintedTransform

/-- The words and marks of the matrix of a transform without its scale. -/
def matrixTokens (t : PrintedTransform) : List Token :=
  call "MatrRotateTranslate".toList (angleTokens t.rotation.x)
    [angleTokens t.rotation.y, angleTokens t.rotation.z, [.word t.position.x.toList],
      [.word t.position.y.toList], [.word t.position.z.toList]]

/-- The words and marks of a point in the frame of a transform. -/
def tokens (t : PrintedTransform) (point : List Token) : List Token :=
  call "vec3".toList
    (call "inverse".toList t.matrixTokens [] ++
      .mark '*' :: call "vec4".toList point [[.word "1.0".toList]]) [] ++
    .mark '/' :: [.word t.scale.toList]

end PrintedTransform

/-- The words and marks of a parameter. -/
def PrintedParam.tokens : PrintedParam → List Token
  | scalar x => [.word x.toList]
  | vector v => v.tokens

namespace LoweredTerm

/-- The words and marks of the sample point, or of that point in the frame of a transform. -/
def outerTokens : Option PrintedTransform → List Token
  | none => [.word "p".toList]
  | some parent => parent.tokens [.word "p".toList]

/-- The words and marks of the scale of the transform above a leaf. -/
def outerScale : Option PrintedTransform → List Token
  | none => []
  | some parent => .mark '*' :: [.word parent.scale.toList]

/-- The words and marks of the distance of a leaf. -/
def distanceTokens (kind : PrimitiveKind) (own : PrintedTransform)
    (parent : Option PrintedTransform) (params : List PrintedParam) : List Token :=
  call kind.name.toList (own.tokens (outerTokens parent)) (params.map PrintedParam.tokens) ++
    .mark '*' :: .word own.scale.toList :: outerScale parent

/-- The words and marks of a term. -/
def tokens : LoweredTerm → List Token
  | leaf kind own parent params color =>
    call "Col".toList (distanceTokens kind own parent params) [color.tokens]
  | join kind left right smoothness =>
    call kind.name.toList left.tokens [right.tokens, [.word smoothness.toList]]

end LoweredTerm

/-! ## Texts are read as their terms -/

/-- A digit is no mark. -/
private theorem not_isMark_of_isDigit {c : Char} (h : c.isDigit = true) : ¬ isMark c := by
  intro hmark
  simp only [isMark, List.mem_cons, List.not_mem_nil, or_false, decide_eq_true_eq] at hmark
  rcases hmark with rfl | rfl | rfl | rfl | rfl | rfl <;> exact absurd h (by decide)

/-- A number is printed as one word. -/
theorem Single.isWord_text (x : Single) : IsWord x.text.toList := by
  rw [Single.text]
  split_ifs
  · decide
  · decide
  · decide
  · rw [String.toList_ofList, tenthsText]
    refine ⟨by simp, fun c hc => ?_⟩
    simp only [List.mem_append, List.mem_singleton] at hc
    rcases hc with ((hsign | hwhole) | rfl) | htenth
    · split_ifs at hsign
      · cases List.mem_singleton.mp hsign
        decide
      · cases hsign
    · exact not_isMark_of_isDigit (Number.isDigit_of_mem_digits hwhole)
    · decide
    · exact not_isMark_of_isDigit (Number.isDigit_of_mem_digits htenth)

@[simp] theorem Single.tokens_text (x : Single) :
    Code.tokens x.text.toList = [.word x.text.toList] :=
  x.isWord_text.tokens_eq

@[simp] theorem Vec3.tokens_text (v : Vec3) : Code.tokens v.text.toList = v.printed.tokens := by
  have htext : v.text.toList =
      callText "vec3".toList v.x.text.toList [v.y.text.toList, v.z.text.toList] := by
    simp [Vec3.text, callText]
  rw [htext, tokens_callText (by decide)]
  simp [PrintedVec.tokens, Vec3.printed]

@[simp] theorem Param.tokens_text (param : Param) :
    Code.tokens param.text.toList = param.printed.tokens := by
  cases param with
  | scalar x => exact x.tokens_text
  | vector v => exact v.tokens_text

theorem Transform.tokens_inverseText (t : Transform) (point : String) :
    Code.tokens (t.inverseText point).toList = t.printed.tokens (Code.tokens point.toList) := by
  have htext : (t.inverseText point).toList =
      callText "vec3".toList
        (callText "inverse".toList
          (callText "MatrRotateTranslate".toList (callText "D2R".toList t.rotation.x.text.toList [])
            [callText "D2R".toList t.rotation.y.text.toList [],
              callText "D2R".toList t.rotation.z.text.toList [], t.position.x.text.toList,
              t.position.y.text.toList, t.position.z.text.toList]) [] ++
          '*' :: callText "vec4".toList point.toList ["1.0".toList]) [] ++
        '/' :: t.scale.text.toList := by
    -- Not by its equation, for which all these literals would be compared.
    delta Transform.inverseText
    simp [callText]
  have hvec3 : IsWord "vec3".toList := by decide
  have hinverse : IsWord "inverse".toList := by decide
  have hmatrix : IsWord "MatrRotateTranslate".toList := by decide
  have hangle : IsWord "D2R".toList := by decide
  have hvec4 : IsWord "vec4".toList := by decide
  have hone : IsWord "1.0".toList := by decide
  rw [htext, tokens_append_mark rfl, tokens_callText hvec3, tokens_append_mark rfl,
    tokens_callText hinverse, tokens_callText hmatrix, tokens_callText hvec4]
  simp only [List.map_cons, List.map_nil, tokens_callText hangle, hone.tokens_eq,
    Single.tokens_text]
  rfl

/-- The name of a body is one word. -/
theorem PrimitiveKind.isWord_name (kind : PrimitiveKind) : IsWord kind.name.toList := by
  cases kind <;> decide

/-- The name of a combination is one word. -/
theorem CombinatorKind.isWord_name (kind : CombinatorKind) : IsWord kind.name.toList := by
  cases kind <;> decide

namespace Expression

theorem tokens_pointText (own parent : Transform) :
    Code.tokens (pointText own parent).toList =
      own.printed.tokens (LoweredTerm.outerTokens parent.printed?) := by
  have hp : Code.tokens "p".toList = [.word "p".toList] :=
    IsWord.tokens_eq (by decide)
  rw [pointText, Transform.tokens_inverseText, Transform.printed?]
  split_ifs
  · rw [hp]
    rfl
  · rw [Transform.tokens_inverseText, hp]
    rfl

theorem tokens_leafText (body : Primitive) (own parent : Transform) (color : Vec3) :
    Code.tokens (leafText body own parent color).toList =
      LoweredTerm.tokens (.leaf body.kind own.printed parent.printed?
        (body.params.map Param.printed) color.printed) := by
  have hparams : (String.join (body.params.map fun param => "," ++ param.text)).toList =
      (body.params.map fun param => param.text.toList).flatMap (',' :: ·) := by
    induction body.params with
    | nil => rfl
    | cons param params ih => simp [ih]
  have htext : (leafText body own parent color).toList =
      callText "Col".toList
        (callText body.kind.name.toList (pointText own parent).toList
            (body.params.map fun param => param.text.toList) ++
          '*' :: (own.scale.text.toList ++
            if parent.isIdentity then [] else '*' :: parent.scale.text.toList))
        [color.text.toList] := by
    -- Not by its equation, for which all these literals would be compared.
    delta leafText
    split_ifs <;> simp [callText, hparams]
  have hscales : Code.tokens (own.scale.text.toList ++
      if parent.isIdentity then [] else '*' :: parent.scale.text.toList) =
        .word own.scale.text.toList :: LoweredTerm.outerScale parent.printed? := by
    rw [Transform.printed?]
    split_ifs
    · rw [List.append_nil, Single.tokens_text]
      rfl
    · rw [tokens_append_mark rfl, Single.tokens_text, Single.tokens_text]
      rfl
  have hcol : IsWord "Col".toList := by decide
  rw [htext, tokens_callText hcol, tokens_append_mark rfl,
    tokens_callText body.kind.isWord_name, tokens_pointText, hscales]
  simp only [List.map_cons, List.map_nil, List.map_map, Function.comp_def, Param.tokens_text,
    Vec3.tokens_text]
  simp only [LoweredTerm.tokens, LoweredTerm.distanceTokens, List.map_map, Function.comp_def]
  rfl

/-- The words and marks of a text are those of the term that is printed. -/
theorem tokens_text {e : Expression} {term : LoweredTerm} (h : e.term? = some term) :
    Code.tokens e.text.toList = term.tokens := by
  induction e generalizing term with
  | leaf body own parent color =>
    cases h
    exact tokens_leafText body own parent color
  | verbatim code => cases h
  | join kind left right smoothness ihleft ihright =>
    simp only [term?, Option.bind_eq_bind, Option.bind_eq_some_iff, Option.pure_def,
      Option.some.injEq] at h
    obtain ⟨first, hfirst, second, hsecond, rfl⟩ := h
    have htext : (join kind left right smoothness).text.toList =
        callText kind.name.toList left.text.toList
          [right.text.toList, smoothness.text.toList] := by
      simp [text, callText]
    rw [htext, tokens_callText kind.isWord_name, ihleft hfirst, List.map_cons, List.map_cons,
      ihright hsecond, Single.tokens_text]
    rfl

end Expression

end SdfScene
