import EffectLink.Declaration.Check

namespace EffectLink

namespace SymbolTable

theorem name_of_get? {t : SymbolTable} {n : String} {s : Symbol} (h : t.get? n = some s) :
    s.name = n := by
  simpa using List.find?_some h

theorem mem_of_get? {t : SymbolTable} {n : String} {s : Symbol} (h : t.get? n = some s) :
    s ∈ t.symbols :=
  List.mem_of_find?_eq_some h

theorem get?_append (first second : List Symbol) (n : String) :
    (SymbolTable.mk (first ++ second)).get? n =
      ((SymbolTable.mk first).get? n).or ((SymbolTable.mk second).get? n) :=
  List.find?_append

theorem get?_singleton (s : Symbol) (n : String) :
    (SymbolTable.mk [s]).get? n = if s.name = n then some s else none := by
  simp only [get?, List.find?_cons, List.find?_nil]
  by_cases h : s.name = n
  · rw [if_pos h, beq_iff_eq.mpr h]
  · rw [if_neg h, beq_eq_false_iff_ne.mpr h]

/-- A taken name is refused, and nothing else is. -/
theorem register_eq_ok {t extended : SymbolTable} {s : Symbol} :
    t.register s = .ok extended ↔ t.get? s.name = none ∧ extended = ⟨t.symbols ++ [s]⟩ := by
  unfold register
  cases h : t.get? s.name with
  | none =>
    constructor
    · intro he
      cases he
      exact ⟨rfl, rfl⟩
    · rintro ⟨-, rfl⟩
      rfl
  | some previous =>
    constructor
    · intro he
      contradiction
    · rintro ⟨he, -⟩
      contradiction

theorem register_eq_error {t : SymbolTable} {s previous : Symbol}
    (h : t.get? s.name = some previous) :
    t.register s = .error ⟨s.name, previous.location⟩ := by
  unfold register
  rw [h]

/-- Offering a list of declarations adds those whose names are new; to look-ups the table is as if all
of them had been appended. -/
theorem get?_registerAll {α : Type} (symbol : α → Symbol) (t : SymbolTable) (declared : List α)
    (n : String) :
    (t.registerAll symbol declared).table.get? n =
      (SymbolTable.mk (t.symbols ++ declared.map symbol)).get? n := by
  induction declared generalizing t with
  | nil =>
    rw [List.map_nil, List.append_nil]
    rfl
  | cons d rest ih =>
    rw [List.map_cons, registerAll]
    cases hname : t.get? (symbol d).name with
    | none =>
      rw [register_eq_ok.mpr ⟨hname, rfl⟩]
      change (registerAll symbol _ rest).table.get? n = _
      rw [ih, List.append_assoc]
      rfl
    | some found =>
      rw [register_eq_error hname]
      change (registerAll symbol t rest).table.get? n = _
      rw [ih, get?_append, get?_append, ← List.singleton_append, get?_append, get?_singleton,
        ← Option.or_assoc]
      -- the refused declaration could only answer for a name that is answered already
      by_cases hn : (symbol d).name = n
      · rw [hn] at hname
        have ht : (SymbolTable.mk t.symbols).get? n = some found := hname
        rw [ht, Option.some_or, Option.some_or, Option.some_or]
      · rw [if_neg hn, Option.or_none]

end SymbolTable

/-- Everything an effect declares besides its programs, in the order of registration. -/
def Effect.symbols (effect : Effect) : List Symbol :=
  effect.structures.map .aggregate ++ effect.globals.map .global ++
  effect.subroutines.map .subroutine ++ effect.renderStates.map .renderState ++
  effect.functions.map .function

/-- A checked effect maps every name to its first declaration. -/
theorem Effect.get?_check (effect : Effect) (n : String) :
    (effect.check .empty).table.get? n = (SymbolTable.mk effect.symbols).get? n := by
  have happend (t : SymbolTable) (more : List Symbol) :
      (SymbolTable.mk (t.symbols ++ more)).get? n = (t.get? n).or ((SymbolTable.mk more).get? n) :=
    SymbolTable.get?_append t.symbols more n
  simp only [Effect.check, SymbolTable.get?_registerAll, happend, Effect.symbols]
  rfl

namespace Effect

variable {effect : Effect} {n : String}

/-- A function that a name stands for is the first function declared under the name. -/
theorem find?_function_of_get? {f : Function}
    (h : (SymbolTable.mk effect.symbols).get? n = some (.function f)) :
    effect.functions.find? (·.name == n) = some f := by
  unfold Effect.symbols at h
  rw [SymbolTable.get?_append] at h
  rcases Option.or_eq_some_iff.mp h with hother | ⟨-, hfunction⟩
  · have hmem := SymbolTable.mem_of_get? hother
    simp at hmem
  · change (effect.functions.map Symbol.function).find? _ = _ at hfunction
    rw [List.find?_map] at hfunction
    obtain ⟨g, hg, he⟩ := Option.map_eq_some_iff.mp hfunction
    cases he
    exact hg

theorem mem_globals_of_get? {v : Variable}
    (h : (SymbolTable.mk effect.symbols).get? n = some (.global v)) : v ∈ effect.globals := by
  have hmem := SymbolTable.mem_of_get? h
  simpa [Effect.symbols] using hmem

theorem mem_subroutines_of_get? {r : Subroutine}
    (h : (SymbolTable.mk effect.symbols).get? n = some (.subroutine r)) :
    r ∈ effect.subroutines := by
  have hmem := SymbolTable.mem_of_get? h
  simpa [Effect.symbols] using hmem

end Effect

end EffectLink
