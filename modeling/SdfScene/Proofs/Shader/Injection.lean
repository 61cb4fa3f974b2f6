import SdfScene.Proofs.Shader.Offsets

/-!
# What injection replaces

A template is either marked, and then only the text from its first marker to the brace that closes
the definition after it is replaced, or it misses one of the parts, and then the function is
appended. There is no third case.
-/

namespace SdfScene.Shader

/-- The text of a template around the first marker and the body of the first definition after it. -/
structure Marked (template before between head body after : List Char) : Prop where
  text : template = before ++ marker ++ between ++ functionName ++ head ++ '\x7b' :: body ++
    '\x7d' :: after
  first : ¬ marker <:+: before
  named : ¬ functionName <:+: between
  unopened : '\x7b' ∉ head
  balanced : Balanced body

/-- What a template misses that is not marked. -/
inductive Unmarked (template : List Char) : Prop
  | noMarker (hmarker : ¬ marker <:+: template)
  | noFunction (before rest : List Char) (htext : template = before ++ marker ++ rest)
    (hfirst : ¬ marker <:+: before) (hname : ¬ functionName <:+: rest)
  | neverCloses (before between rest : List Char)
    (htext : template = before ++ marker ++ between ++ functionName ++ rest)
    (hfirst : ¬ marker <:+: before) (hname : ¬ functionName <:+: between)
    (hopen : NeverCloses rest)

theorem marker_unbordered : Unbordered marker := by
  decide

theorem functionName_unbordered : Unbordered functionName := by
  decide

/-- The marker is passed over in the search for the name. -/
theorem splitBefore?_functionName (text : List Char) :
    splitBefore? functionName (marker ++ text) =
      (splitBefore? functionName text).map fun (between, found) => (marker ++ between, found) :=
  splitBefore?_append_of_notMem (by decide) text

/-- In a marked template, the parts around the definition are those before the marker and after the
body. -/
theorem Marked.aroundDefinition? {template before between head body after : List Char}
    (h : Marked template before between head body after) :
    Shader.aroundDefinition? template = some (before, after) := by
  have hbody : afterBody? 0 (functionName ++ (head ++ ('\x7b' :: (body ++ '\x7d' :: after)))) =
      some after := by
    rw [afterBody?_zero_append (by decide)]
    exact afterBody?_zero_eq_some.mpr ⟨head, body, by simp, h.unopened, h.balanced⟩
  rw [h.text]
  simp only [Shader.aroundDefinition?, List.append_assoc, List.cons_append,
    splitBefore?_append marker_unbordered h.first, splitBefore?_functionName,
    splitBefore?_append functionName_unbordered h.named, Option.map_some, Option.bind_eq_bind,
    Option.bind_some, hbody]
  rfl

/-- In any other template there are none. -/
theorem Unmarked.aroundDefinition? {template : List Char} (h : Unmarked template) :
    Shader.aroundDefinition? template = none := by
  cases h with
  | noMarker hmarker =>
    rw [Shader.aroundDefinition?, splitBefore?_eq_none.mpr hmarker]
    rfl
  | noFunction before rest htext hfirst hname =>
    rw [htext, List.append_assoc, Shader.aroundDefinition?,
      splitBefore?_append marker_unbordered hfirst]
    simp [splitBefore?_functionName, splitBefore?_eq_none.mpr hname]
  | neverCloses before between rest htext hfirst hname hopen =>
    have hbody : afterBody? 0 (functionName ++ rest) = none := by
      rw [afterBody?_zero_append (by decide)]
      exact afterBody?_zero_eq_none.mpr hopen
    rw [htext, Shader.aroundDefinition?]
    simp [splitBefore?_append marker_unbordered hfirst, splitBefore?_functionName,
      splitBefore?_append functionName_unbordered hname, hbody]

/-- There is no third case. -/
theorem marked_or_unmarked (template : List Char) :
    (∃ before between head body after, Marked template before between head body after) ∨
      Unmarked template := by
  obtain hmarker | ⟨before, rest, rfl, hfirst⟩ :=
    exists_first_occurrence marker (by decide) template
  · exact .inr (.noMarker hmarker)
  · obtain hname | ⟨between, rest, rfl, hname⟩ :=
      exists_first_occurrence functionName (by decide) rest
    · exact .inr (.noFunction before rest (by simp) hfirst hname)
    · cases hbody : afterBody? 0 rest with
      | none =>
        exact .inr (.neverCloses before between rest (by simp) hfirst hname
          (afterBody?_zero_eq_none.mp hbody))
      | some after =>
        obtain ⟨head, body, rfl, hhead, hbalanced⟩ := afterBody?_zero_eq_some.mp hbody
        exact .inl ⟨before, between, head, body, after, by simp, hfirst, hname, hhead, hbalanced⟩

/-- What is cut off at the end of a text is blank, and what is left does not end in a blank. -/
theorem exists_trimEnd (text : List Char) :
    ∃ blanks, text = Text.trimEnd text ++ blanks ∧ (∀ c ∈ blanks, Text.isBlank c) ∧
      ∀ c ∈ (Text.trimEnd text).getLast?, ¬ Text.isBlank c := by
  refine ⟨(text.reverse.takeWhile Text.isBlank).reverse, ?_, ?_, ?_⟩
  · rw [Text.trimEnd, ← List.reverse_append, List.takeWhile_append_dropWhile, List.reverse_reverse]
  · intro c hc
    exact List.all_eq_true.mp List.all_takeWhile c (List.mem_reverse.mp hc)
  · intro c hc
    rw [Text.trimEnd, List.getLast?_reverse] at hc
    have hfirst := List.head?_dropWhile_not Text.isBlank text.reverse
    rw [Option.mem_def.mp hc] at hfirst
    simpa using hfirst

/-- Injection puts the function in the place of the marked definition, behind the first marker and
up to the brace that closes the body, and changes nothing around it. It appends the function to a
template without blanks at its end exactly if there is no such definition. By offsets, no count of
braces falls below zero and each slice begins at a character. -/
theorem inject_replaces_or_appends (template expression : String) :
    (∀ before between head body after,
      Marked template.toList before between head body after →
        inject template expression =
          String.ofList before ++ worldMap expression ++ String.ofList after) ∧
    (Unmarked template.toList ↔
      ∀ before between head body after, ¬ Marked template.toList before between head body after) ∧
    (Unmarked template.toList →
      ∃ kept blanks, template.toList = kept ++ blanks ∧ (∀ c ∈ blanks, Text.isBlank c) ∧
        (∀ c ∈ kept.getLast?, ¬ Text.isBlank c) ∧
        inject template expression =
          String.ofList kept ++ "\n" ++ worldMap expression ++ "\n") ∧
    sliceAround? template.toList = some (aroundDefinition? template.toList) := by
  refine ⟨?_, ⟨?_, ?_⟩, ?_, sliceAround?_eq template.toList⟩
  · intro before between head body after hmarked
    rw [inject, hmarked.aroundDefinition?]
  · intro hunmarked before between head body after hmarked
    have hnone := hunmarked.aroundDefinition?
    rw [hmarked.aroundDefinition?] at hnone
    cases hnone
  · intro hnever
    obtain ⟨before, between, head, body, after, hmarked⟩ | hunmarked :=
      marked_or_unmarked template.toList
    · exact absurd hmarked (hnever before between head body after)
    · exact hunmarked
  · intro hunmarked
    obtain ⟨blanks, htext, hblank, hlast⟩ := exists_trimEnd template.toList
    refine ⟨Text.trimEnd template.toList, blanks, htext, hblank, hlast, ?_⟩
    rw [inject, hunmarked.aroundDefinition?]

/-- A definition with a brace in its body, and nothing around it but lines. -/
theorem inject_between_lines :
    Marked "a\n// WORLD_MAP_PLACEHOLDER\nCol worldMap(vec3 p) \x7b\x7b\x7d\x7d\nb".toList
      "a\n".toList "\nCol ".toList "(vec3 p) ".toList "\x7b\x7d".toList "\nb".toList ∧
    inject "a\n// WORLD_MAP_PLACEHOLDER\nCol worldMap(vec3 p) \x7b\x7b\x7d\x7d\nb" "d" =
      String.ofList "a\n".toList ++ worldMap "d" ++ String.ofList "\nb".toList := by
  have hmarked :
      Marked "a\n// WORLD_MAP_PLACEHOLDER\nCol worldMap(vec3 p) \x7b\x7b\x7d\x7d\nb".toList
        "a\n".toList "\nCol ".toList "(vec3 p) ".toList "\x7b\x7d".toList "\nb".toList :=
    ⟨by decide, by decide, by decide, by decide, by decide⟩
  exact ⟨hmarked, (inject_replaces_or_appends _ "d").1 _ _ _ _ _ hmarked⟩

end SdfScene.Shader
