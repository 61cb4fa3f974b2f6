import SdfScene.Proofs.Expression.Reading
import SdfScene.Proofs.Expression.Lowering

/-!
# Compiled text is readable

The calls of a compiled text say what they do: a combination combines two distances over a
radius, and a body scales its distance back by what its point was divided by. Since no two
terms have the same words and marks, the text also tells the term.
-/

namespace SdfScene

open Code

/-! ## The calls of a term -/

theorem PrintedVec.argument (v : PrintedVec) : Argument v.tokens :=
  .call _ (.word _) (by simp [Argument.word])

theorem PrintedParam.argument (x : PrintedParam) : Argument x.tokens := by
  cases x with
  | scalar x => exact .word _
  | vector v => exact v.argument

theorem PrintedTransform.argument (t : PrintedTransform) {point : List Token}
    (hpoint : Argument point) : Argument (t.tokens point) := by
  have hangle : ∀ x, Argument (angleTokens x) := fun x => .call _ (.word _) (by simp)
  have hmatrix : Argument t.matrixTokens :=
    .call _ (hangle _) (by simp [hangle, Argument.word])
  have hvector : Argument (call "vec4".toList point [[.word "1.0".toList]]) :=
    .call _ hpoint (by simp [Argument.word])
  have hinverse : Argument (call "inverse".toList t.matrixTokens []) :=
    .call _ hmatrix (by simp)
  exact .operation (by decide) (.call _ (.operation (by decide) hinverse hvector) (by simp))
    (.word _)

namespace LoweredTerm

theorem argument_outerTokens (parent : Option PrintedTransform) : Argument (outerTokens parent) := by
  cases parent with
  | none => exact .word _
  | some parent => exact parent.argument (.word _)

theorem argument_distanceTokens (kind : PrimitiveKind) (own : PrintedTransform)
    (parent : Option PrintedTransform) (params : List PrintedParam) :
    Argument (distanceTokens kind own parent params) := by
  have hcall : Argument (call kind.name.toList (own.tokens (outerTokens parent))
      (params.map PrintedParam.tokens)) :=
    .call _ (own.argument (argument_outerTokens parent))
      (List.forall_mem_map.mpr fun param _ => param.argument)
  cases parent with
  | none => exact .operation (by decide) hcall (.word _)
  | some parent =>
    have h := Argument.operation (c := '*') (by decide)
      (.operation (c := '*') (by decide) hcall (.word own.scale.toList)) (.word parent.scale.toList)
    simpa [distanceTokens, outerScale] using h

theorem argument (t : LoweredTerm) : Argument t.tokens := by
  induction t with
  | leaf kind own parent params color =>
    exact .call _ (argument_distanceTokens kind own parent params) (by simp [color.argument])
  | join kind left right smoothness ihleft ihright =>
    exact .call _ ihleft (by simp [ihright, Argument.word])

end LoweredTerm

namespace Code

/-- The words that stand directly behind a division. -/
def divisors : List Token → List (List Char)
  | .mark '/' :: .word text :: rest => text :: divisors rest
  | _ :: rest => divisors rest
  | [] => []

/-- The words that something is multiplied by, up to the first other token. -/
def factors : List Token → List (List Char)
  | .mark '*' :: .word text :: rest => text :: factors rest
  | _ => []

/-- No division reaches over a mark. -/
theorem divisors_append_mark (read : List Token) (c : Char) (rest : List Token) :
    divisors (read ++ .mark c :: rest) = divisors read ++ divisors (.mark c :: rest) := by
  induction read using divisors.induct with
  | case1 text read ih => simp [divisors, ih]
  | case2 token read hdivision ih =>
    have hfront : ∀ text tail, token = .mark '/' → read ++ .mark c :: rest ≠ .word text :: tail := by
      intro text tail hdivide htail
      rcases read with _ | ⟨first, read⟩
      · cases htail
      · cases htail
        exact hdivision _ _ hdivide rfl
    rw [List.cons_append, divisors.eq_2 _ _ hfront, ih, divisors.eq_2 _ _ hdivision]
  | case3 => rfl

end Code

theorem PrintedTransform.divisors_tokens (t : PrintedTransform) (point : List Token) :
    divisors (t.tokens point) = divisors point ++ [t.scale.toList] := by
  simp [tokens, matrixTokens, call, angleTokens, divisors, divisors_append_mark]

/-- What a call says by its name, of what stands behind its parenthesis: a combination has
three arguments, and what a body returns is multiplied by what its point was divided by,
the last divisor first. -/
structure ReadsAs (name : List Char) (rest : List Token) : Prop where
  combination : ∀ kind : CombinatorKind, name = kind.name.toList →
    ∃ left right smoothness after, arguments? rest = some ([left, right, smoothness], after)
  body : ∀ kind : PrimitiveKind, name = kind.name.toList →
    ∃ point params after, arguments? rest = some (point :: params, after) ∧
      divisors point = (factors after).reverse

/-- Names of nothing that has a kind say nothing. -/
theorem ReadsAs.of_ne {name : List Char} (h : ∀ kind ∈ Kind.all, name ≠ kind.name.toList)
    (rest : List Token) : ReadsAs name rest where
  combination kind hname := absurd hname (h (.combinator kind) (by cases kind <;> decide))
  body kind hname := absurd hname (h (.primitive kind) (by cases kind <;> decide))

/-- So a call of such a name reads as it says if its arguments do. -/
theorem ReadsAs.allCalls_call {name : List Char} (h : ∀ kind ∈ Kind.all, name ≠ kind.name.toList)
    {first : List Token} {others : List (List Token)} (hfirst : AllCalls ReadsAs first)
    (hothers : ∀ other ∈ others, AllCalls ReadsAs other) :
    AllCalls ReadsAs (call name first others) :=
  .call (fun _ => .of_ne h _) hfirst hothers

theorem PrintedVec.allCalls (v : PrintedVec) : AllCalls ReadsAs v.tokens :=
  ReadsAs.allCalls_call (by decide) (allCalls_word _) (by simp [allCalls_word])

theorem PrintedParam.allCalls (x : PrintedParam) : AllCalls ReadsAs x.tokens := by
  cases x with
  | scalar x => exact allCalls_word _
  | vector v => exact v.allCalls

theorem PrintedTransform.allCalls (t : PrintedTransform) {point : List Token}
    (hpoint : AllCalls ReadsAs point) : AllCalls ReadsAs (t.tokens point) := by
  have hangle : ∀ x, AllCalls ReadsAs (angleTokens x) := fun x =>
    ReadsAs.allCalls_call (by decide) (allCalls_word _) (by simp)
  have hmatrix : AllCalls ReadsAs t.matrixTokens :=
    ReadsAs.allCalls_call (by decide) (hangle _) (by simp [hangle, allCalls_word])
  have hvector : AllCalls ReadsAs (call "vec4".toList point [[.word "1.0".toList]]) :=
    ReadsAs.allCalls_call (by decide) hpoint (by simp [allCalls_word])
  have hinverse : AllCalls ReadsAs (call "inverse".toList t.matrixTokens []) :=
    ReadsAs.allCalls_call (by decide) hmatrix (by simp)
  exact .operation (by decide)
    (ReadsAs.allCalls_call (by decide) (.operation (by decide) hinverse hvector) (by simp))
    (allCalls_word _)

namespace LoweredTerm

theorem allCalls_outerTokens (parent : Option PrintedTransform) :
    AllCalls ReadsAs (outerTokens parent) := by
  cases parent with
  | none => exact allCalls_word _
  | some parent => exact parent.allCalls (allCalls_word _)

/-- The point of a leaf is divided by the scales that its distance is multiplied by. -/
theorem divisors_eq_factors (own : PrintedTransform) (parent : Option PrintedTransform)
    (rest : List Token) :
    divisors (own.tokens (outerTokens parent)) =
      (factors (.mark '*' :: .word own.scale.toList :: outerScale parent ++
        .mark ',' :: rest)).reverse := by
  rw [PrintedTransform.divisors_tokens]
  cases parent with
  | none => rfl
  | some parent => rw [outerTokens, PrintedTransform.divisors_tokens]; rfl

/-- The distance of a leaf, in the place it has in the call of the leaf. -/
theorem callsHold_distanceTokens (kind : PrimitiveKind) (own : PrintedTransform)
    (parent : Option PrintedTransform) (params : List PrintedParam) (rest : List Token) :
    CallsHold ReadsAs (distanceTokens kind own parent params) (.mark ',' :: rest) := by
  have hpoint := own.argument (argument_outerTokens parent)
  have hparams : ∀ param ∈ params.map PrintedParam.tokens, Argument param :=
    List.forall_mem_map.mpr fun param _ => param.argument
  have hscales : CallsHold ReadsAs (.mark '*' :: .word own.scale.toList :: outerScale parent)
      (.mark ',' :: rest) := by
    cases parent <;> simp [outerScale, CallsHold]
  rw [distanceTokens, callsHold_append]
  refine ⟨callsHold_call ⟨fun combination h => ?_, fun body _ => ?_⟩ ?_ ?_, hscales⟩
  · exact absurd h (by cases kind <;> cases combination <;> decide)
  · exact ⟨_, _, _, arguments?_call hpoint hparams _, divisors_eq_factors own parent rest⟩
  · refine own.allCalls (allCalls_outerTokens parent) _ ?_
    cases params <;> simp
  · exact callsHold_arguments (List.forall_mem_map.mpr fun param _ => param.allCalls) _

/-- All calls of a term read as they say. -/
theorem allCalls (t : LoweredTerm) : AllCalls ReadsAs t.tokens := by
  induction t with
  | leaf kind own parent params color =>
    intro after _
    refine callsHold_call (.of_ne (by decide) _) ?_ (callsHold_arguments ?_ after)
    · exact callsHold_distanceTokens kind own parent params _
    · simp [color.allCalls]
  | join kind left right smoothness ihleft ihright =>
    have hothers : ∀ other ∈ [right.tokens, [.word smoothness.toList]], Argument other := by
      simp [right.argument, Argument.word]
    refine .call (fun after => ⟨fun _ _ => ?_, fun body h => ?_⟩) ihleft
      (by simp [ihright, allCalls_word])
    · exact ⟨_, _, _, _, arguments?_call left.argument hothers after⟩
    · exact absurd h (by cases kind <;> cases body <;> decide)

end LoweredTerm

/-! ## Compiled text -/

/-- A text that closes what it opens and of which every call reads as it says. -/
structure Readable (text : List Char) : Prop where
  balanced : Balanced text
  calls : ∀ before name rest,
    tokens text = before ++ .word name :: .mark '(' :: rest → ReadsAs name rest

/-- The text of an expression that prints a term is readable. -/
theorem Expression.readable {e : Expression} {term : LoweredTerm} (h : e.term? = some term) :
    Readable e.text.toList where
  balanced := by
    rw [← flatMap_chars_tokens e.text.toList]
    refine Argument.balanced ?_ fun _ => unmarked_of_mem_tokens
    rw [tokens_text h]
    exact term.argument
  calls before name rest hcall := by
    rw [tokens_text h] at hcall
    exact (term.allCalls [] fun _ hnil => by cases hnil).of_occurrence hcall

/-- The text of nothing is readable. -/
theorem Expression.readable_neutralText : Readable neutralText.toList where
  balanced := by
    have hparts : neutralText.toList = "Col".toList ++ '(' ::
        (("0.0, vec3".toList ++ '(' :: ("0.0".toList ++ [')'])) ++ [')']) := by decide
    rw [hparts]
    exact .append (.of_notMem (by decide) (by decide)) (.enclosed
      (.append (.of_notMem (by decide) (by decide)) (.enclosed
        (.of_notMem (by decide) (by decide)))))
  calls before name rest hcall := by
    refine .of_ne (fun kind hkind hname => ?_) rest
    have hnone : ∀ kind ∈ Kind.all, .word kind.name.toList ∉ tokens neutralText.toList := by decide
    exact hnone kind hkind (by rw [hcall, hname]; simp)

/-- The term that the expression of a lowered shape prints. -/
def Lowered.term? {α : Type} (lowered : Lowered α) : Option LoweredTerm :=
  lowered.expression.bind Expression.term?

/-- An expression that prints a term does not have the text of nothing. -/
theorem Expression.text_ne_neutralText {e : Expression} {term : LoweredTerm}
    (h : e.term? = some term) : e.text ≠ neutralText := by
  intro htext
  rw [text_eq_neutralText.mp htext] at h
  cases h

/-- Where all that is drawn prints terms, the text tells the term. -/
theorem Lowered.text_inj {α β : Type} {lowered : Lowered α} {lowered' : Lowered β}
    (hterms : ∀ e ∈ lowered.expression, ∃ term, e.term? = some term)
    (hterms' : ∀ e ∈ lowered'.expression, ∃ term, e.term? = some term) :
    lowered.text = lowered'.text ↔
      lowered.expression = none ∧ lowered'.expression = none ∨
        ∃ term, lowered.term? = some term ∧ lowered'.term? = some term := by
  unfold text term?
  rcases hleft : lowered.expression with _ | e <;> rcases hright : lowered'.expression with _ | e'
  · simp
  · obtain ⟨term', hterm'⟩ := hterms' e' hright
    simpa using (Expression.text_ne_neutralText hterm').symm
  · obtain ⟨term, hterm⟩ := hterms e hleft
    simpa using Expression.text_ne_neutralText hterm
  · obtain ⟨term, hterm⟩ := hterms e hleft
    obtain ⟨term', hterm'⟩ := hterms' e' hright
    simp [Expression.text_inj hterm hterm', hterm, hterm', eq_comm]

/-- Two expressions that print terms are combined to one that does. -/
theorem Expression.exists_term?_join? {kind : CombinatorKind} {smoothness : Single}
    {left right : Option Expression} (hleft : ∀ e ∈ left, ∃ term, e.term? = some term)
    (hright : ∀ e ∈ right, ∃ term, e.term? = some term) :
    ∀ e ∈ join? kind smoothness left right, ∃ term, e.term? = some term := by
  rcases left with _ | left
  · rcases right with _ | right <;> exact hright
  rcases right with _ | right
  · exact hleft
  rintro e ⟨rfl⟩
  obtain ⟨first, hfirst⟩ := hleft left rfl
  obtain ⟨second, hsecond⟩ := hright right rfl
  exact ⟨.join kind first second smoothness.text, by simp [term?, hfirst, hsecond]⟩

namespace Shape

private theorem exists_term?_lowerRow (mode : FlattenMode) (kind : CombinatorKind)
    (smoothness : Single) (transform : Transform) (ids : Allocator) (children : List Shape)
    (hchildren : ∀ child ∈ children, ∀ ids, ∀ e ∈ (lower mode transform child ids).expression,
      ∃ term, e.term? = some term) :
    ∀ e ∈ (lowerRow mode kind smoothness transform children ids).expression,
      ∃ term, e.term? = some term := by
  induction children generalizing ids with
  | nil => exact fun e he => absurd he (by simp [lowerRow])
  | cons first others ih =>
    obtain ⟨hfirst, hothers⟩ := List.forall_mem_cons.mp hchildren
    rcases others with _ | ⟨second, _ | ⟨third, others⟩⟩
    · exact hfirst ids
    · exact Expression.exists_term?_join? (hfirst _) (hothers second List.mem_cons_self _)
    · by_cases hlost : first.id = ids.next.1
      · have hnext : first.id = NodeId.ofNumber (ids.floor + 1) := hlost
        simp only [lowerRow, Allocator.next, hnext, ite_true]
        exact Expression.exists_term?_join? (by simp) (ih _ hothers)
      · rw [lowerRow_wide _ _ _ _ _ _ _ _ hlost]
        exact Expression.exists_term?_join? (hfirst _) (ih _ hothers)

/-- A shape without custom code lowers to an expression that prints a term. -/
theorem exists_term?_lower (mode : FlattenMode) (shape : Shape) (parent : Transform)
    (ids : Allocator) (hkinds : ∀ node ∈ shape.nodes, node.kind ≠ .custom) :
    ∀ e ∈ (lower mode parent shape ids).expression, ∃ term, e.term? = some term := by
  induction shape generalizing parent ids with
  | primitive body transform color id =>
    rintro e ⟨rfl⟩
    exact ⟨_, rfl⟩
  | custom content transform id => exact absurd rfl (hkinds _ (self_mem_nodes _))
  | combinator kind children smoothness transform id ih =>
    rw [nodes_combinator] at hkinds
    refine exists_term?_lowerRow mode kind smoothness transform ids children
      fun child hchild ids => ih child hchild transform ids fun node hnode => ?_
    exact hkinds node (List.mem_cons_of_mem _ (List.mem_flatMap.mpr ⟨child, hchild, hnode⟩))

/-- The text of a shape without custom code has balanced parentheses, three arguments in each
combination, and at each body the scales of its distance are those of its point. It is the
text of another such shape exactly if both draw nothing or print the same term. The
expression that prints it is what the shape draws, as long as the ids issued on the way are
new and fit in 64 bits. -/
theorem compiled_text_readable (shape shape' : Shape) (mode mode' : FlattenMode)
    (ids ids' : Allocator) (hkinds : ∀ node ∈ shape.nodes, node.kind ≠ .custom)
    (hkinds' : ∀ node ∈ shape'.nodes, node.kind ≠ .custom) :
    let lowered := shape.lower mode .identity ids
    let lowered' := shape'.lower mode' .identity ids'
    Readable lowered.text.toList ∧
      (lowered.text = lowered'.text ↔
        lowered.expression = none ∧ lowered'.expression = none ∨
          ∃ term, lowered.term? = some term ∧ lowered'.term? = some term) ∧
      (ids.Covers shape.ids → ids.floor + mode.issued shape.splits < 2 ^ 64 →
        lowered.expression = shape.drawn? .identity) := by
  intro lowered lowered'
  have hterms := exists_term?_lower mode shape .identity ids hkinds
  have hterms' := exists_term?_lower mode' shape' .identity ids' hkinds'
  refine ⟨?_, ?_, lower_expression mode shape .identity ids⟩
  · cases he : lowered.expression with
    | none =>
      rw [Lowered.text, he]
      exact Expression.readable_neutralText
    | some e =>
      obtain ⟨term, hterm⟩ := hterms e he
      rw [Lowered.text, he]
      exact Expression.readable hterm
  · exact Lowered.text_inj hterms hterms'

/-- A combination of two bodies in the tree, and one that is split for the moment because of
a child that draws nothing. -/
theorem compiled_text_readable_of_split :
    let bodies : List Shape := [.ofKind ⟨"1"⟩ (.primitive .sphere), .ofKind ⟨"2"⟩ (.primitive .cone)]
    let shape : Shape := .combinator .union bodies .zero ⟨.zero, .zero, .zero⟩ ⟨"3"⟩
    let shape' : Shape := .combinator .union (.ofKind ⟨"4"⟩ (.combinator .xor) :: bodies) .zero
      ⟨.zero, .zero, .zero⟩ ⟨"3"⟩
    (∀ node ∈ shape.nodes, node.kind ≠ .custom) ∧ (∀ node ∈ shape'.nodes, node.kind ≠ .custom) ∧
      Readable (shape.lower .inPlace .identity ⟨3⟩).text.toList ∧
      (shape.lower .inPlace .identity ⟨3⟩).text =
        (shape'.lower .transient .identity ⟨4⟩).text ∧
      (shape.lower .inPlace .identity ⟨3⟩).expression = shape.drawn? .identity := by
  intro bodies shape shape'
  have hkinds : ∀ node ∈ shape.nodes, node.kind ≠ .custom := by decide
  have hkinds' : ∀ node ∈ shape'.nodes, node.kind ≠ .custom := by decide
  have hcovers : Allocator.Covers ⟨3⟩ shape.ids := by decide +kernel
  obtain ⟨hreadable, hsame, hdrawn⟩ :=
    compiled_text_readable shape shape' .inPlace .transient ⟨3⟩ ⟨4⟩ hkinds hkinds'
  exact ⟨hkinds, hkinds', hreadable, hsame.mpr (.inr ⟨_, rfl, rfl⟩), hdrawn hcovers (by decide)⟩

end Shape

end SdfScene
