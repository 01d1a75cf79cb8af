import EffectLink.Proofs.CountedErrors
import EffectLink.Proofs.EarlyReports
import Mathlib.Data.List.Nodup

namespace EffectLink

namespace SymbolTable

variable {α : Type} {symbol : α → Symbol} {t : SymbolTable} {declared : List α}

/-- No name stands in the table twice. -/
def Distinct (t : SymbolTable) : Prop := (t.symbols.map (·.name)).Nodup

theorem distinct_empty : empty.Distinct := List.nodup_nil

theorem Distinct.left {first second : List Symbol} (h : (SymbolTable.mk (first ++ second)).Distinct) :
    (SymbolTable.mk first).Distinct := by
  unfold Distinct at h ⊢
  rw [List.map_append] at h
  exact h.of_append_left

theorem get?_eq_none {n : String} : t.get? n = none ↔ ∀ s ∈ t.symbols, s.name ≠ n := by
  simp [get?]

theorem distinct_concat {s : Symbol} :
    (SymbolTable.mk (t.symbols ++ [s])).Distinct ↔ t.Distinct ∧ t.get? s.name = none := by
  unfold Distinct
  rw [get?_eq_none]
  simp [List.nodup_append]

/-- Everything in a table without repetition is found under its name. -/
theorem Distinct.get? (h : t.Distinct) {s : Symbol} (hs : s ∈ t.symbols) :
    t.get? s.name = some s := by
  cases hfound : t.get? s.name with
  | none => exact absurd rfl (get?_eq_none.mp hfound s hs)
  | some other =>
    have hsame : other = s :=
      List.inj_on_of_nodup_map h (mem_of_get? hfound) hs (name_of_get? hfound)
    rw [hsame]

/-- Registration lets no name into a table twice. -/
theorem Distinct.registerAll (h : t.Distinct) : (t.registerAll symbol declared).table.Distinct := by
  induction declared generalizing t with
  | nil => exact h
  | cons d rest ih =>
    unfold SymbolTable.registerAll
    cases hname : t.get? (symbol d).name with
    | none =>
      rw [register_eq_ok.mpr ⟨hname, rfl⟩]
      exact ih (distinct_concat.mpr ⟨h, hname⟩)
    | some found =>
      rw [register_eq_error hname]
      exact ih h

/-- Where nothing is refused, everything is accepted and stands in the table. -/
theorem registerAll_of_no_faults (h : (t.registerAll symbol declared).faults = []) :
    t.registerAll symbol declared = ⟨⟨t.symbols ++ declared.map symbol⟩, declared, []⟩ := by
  induction declared generalizing t with
  | nil =>
    rw [List.map_nil, List.append_nil]
    rfl
  | cons d rest ih =>
    unfold registerAll at h ⊢
    cases hname : t.get? (symbol d).name with
    | none =>
      rw [register_eq_ok.mpr ⟨hname, rfl⟩] at h ⊢
      dsimp only at h ⊢
      rw [ih h, List.append_assoc]
      rfl
    | some found =>
      rw [register_eq_error hname] at h
      contradiction

/-- Where all names are different, nothing is refused. -/
theorem registerAll_of_distinct (h : (SymbolTable.mk (t.symbols ++ declared.map symbol)).Distinct) :
    t.registerAll symbol declared = ⟨⟨t.symbols ++ declared.map symbol⟩, declared, []⟩ := by
  apply registerAll_of_no_faults
  induction declared generalizing t with
  | nil => rfl
  | cons d rest ih =>
    have hsplit : t.symbols ++ (d :: rest).map symbol =
        (t.symbols ++ [symbol d]) ++ rest.map symbol := by simp
    rw [hsplit] at h
    -- the first name is new to the table, and the rest is new to the table with it
    obtain ⟨-, hname⟩ := distinct_concat.mp h.left
    unfold registerAll
    rw [register_eq_ok.mpr ⟨hname, rfl⟩]
    exact ih h

theorem typeFaults_eq_nil {owner : String} {l : Location} {type : DataType} :
    t.typeFaults owner l type = [] ↔
      ∀ n, type.userName? = some n → ∃ s, t.get? n = some (.aggregate s) := by
  cases type with
  | builtin kind => simp [typeFaults, DataType.userName?]
  | user name =>
    simp only [DataType.userName?, Option.some.injEq, forall_eq']
    unfold typeFaults
    dsimp only
    cases hresolved : t.resolveAggregate name.text with
    | ok s => exact iff_of_true rfl ⟨s, resolveAggregate_eq_ok.mp hresolved⟩
    | error e =>
      apply iff_of_false
      · intro h
        cases e <;> contradiction
      · rintro ⟨s, hs⟩
        rw [resolveAggregate_eq_ok.mpr hs] at hresolved
        contradiction

/-- A registered structure is recursive exactly if a member has the structure's own name for its type.
The location makes no difference: the name leads to the structure itself. -/
theorem isRecursive_iff {s : Structure} (h : t.get? s.name = some (.aggregate s)) :
    t.isRecursive s = true ↔ ∃ member ∈ s.members, member.type.userName? = some s.name := by
  unfold isRecursive
  rw [List.any_eq_true]
  refine exists_congr fun member => and_congr_right fun _ => ?_
  cases member.type with
  | builtin kind => simp [DataType.userName?]
  | user name =>
    simp only [DataType.userName?, Option.some.injEq]
    cases hresolved : t.resolveAggregate name.text with
    | ok found =>
      have hfound := resolveAggregate_eq_ok.mp hresolved
      have hname : found.name = name.text := name_of_get? hfound
      constructor
      · intro hself
        obtain ⟨hsame, -⟩ := Bool.and_eq_true_iff.mp hself
        rw [← hname]
        exact beq_iff_eq.mp hsame
      · intro hself
        -- the name leads to one declaration only, so this is the structure itself
        rw [hself, h] at hfound
        cases hfound
        simp
    | error e =>
      refine iff_of_false Bool.false_ne_true fun hself => ?_
      rw [hself, resolveAggregate_eq_ok.mpr h] at hresolved
      contradiction

/-- Members of the structure's own type are left to the first check, all others go through the second. -/
theorem structureFaults_eq_nil {s : Structure} (h : t.get? s.name = some (.aggregate s)) :
    t.structureFaults s = [] ↔ ∀ member ∈ s.members, member.type.userName? ≠ some s.name ∧
      ∀ n, member.type.userName? = some n → ∃ found, t.get? n = some (.aggregate found) := by
  have hrecursion : t.recursionFaults s = [] ↔
      ∀ member ∈ s.members, member.type.userName? ≠ some s.name := by
    have hrecursive := isRecursive_iff h
    unfold recursionFaults
    split
    · next hself =>
      obtain ⟨member, hmember, hname⟩ := hrecursive.mp hself
      exact iff_of_false (List.cons_ne_nil _ _) fun hnone => hnone member hmember hname
    · next hself =>
      exact iff_of_true rfl fun member hmember hname => hself (hrecursive.mpr ⟨member, hmember, hname⟩)
  unfold structureFaults
  rw [List.append_eq_nil_iff, hrecursion, List.flatMap_eq_nil_iff, ← forall₂_and]
  refine forall₂_congr fun member _ => and_congr_right fun hother => ?_
  rw [if_neg hother, typeFaults_eq_nil]

/-- A slot is reported if it has come before, so nothing is reported exactly if no slot comes twice. -/
theorem slotFaults_eq_nil {function list : String} {earlier rest : List (Parameter × UInt32)} :
    slotFaults function list earlier rest = [] ↔
      (rest.map Prod.snd).Nodup ∧ ∀ p ∈ rest, ∀ e ∈ earlier, e.2 ≠ p.2 := by
  induction rest generalizing earlier with
  | nil => simp [slotFaults]
  | cons p rest ih =>
    unfold slotFaults
    rw [List.append_eq_nil_iff, ih]
    cases hfound : earlier.find? (·.2 == p.2) with
    | some e =>
      have hshared : e.2 = p.2 := by simpa using List.find?_some hfound
      refine iff_of_false (fun h => List.cons_ne_nil _ _ h.1) fun h => ?_
      exact h.2 p List.mem_cons_self e (List.mem_of_find?_eq_some hfound) hshared
    | none =>
      have hnew : ∀ e ∈ earlier, e.2 ≠ p.2 := by simpa using hfound
      -- the parameter is new to those before it; those after it have to be new to it as well
      simp only [List.map_cons, List.nodup_cons, List.forall_mem_cons, List.mem_map, not_exists, not_and]
      constructor
      · rintro ⟨-, hrest, hlater⟩
        exact ⟨⟨fun q hq heq => (hlater q hq).1 heq.symm, hrest⟩, hnew, fun q hq => (hlater q hq).2⟩
      · rintro ⟨⟨hself, hrest⟩, -, hlater⟩
        exact ⟨trivial, hrest, fun q hq => ⟨fun heq => hself q hq heq.symm, hlater q hq⟩⟩

theorem slotFaults_effective {function list : String} {parameters : List Parameter} :
    slotFaults function list [] (parameters.zip (effective (·.slot) parameters)) = [] ↔
      (effective (·.slot) parameters).Nodup := by
  have hlength : (effective (·.slot) parameters).length ≤ parameters.length := by simp [effective]
  rw [slotFaults_eq_nil, List.map_snd_zip hlength]
  simp

theorem functionFaults_eq_nil {f : Function} :
    t.functionFaults f = [] ↔
      (∀ n, f.returnType.userName? = some n → ∃ s, t.get? n = some (.aggregate s)) ∧
      (∀ p ∈ f.parameters, ∀ n, p.type.userName? = some n → ∃ s, t.get? n = some (.aggregate s)) ∧
      f.inputSlots.Nodup ∧ f.outputSlots.Nodup := by
  unfold functionFaults Function.inputSlots Function.outputSlots
  simp only [List.append_eq_nil_iff, List.flatMap_eq_nil_iff, typeFaults_eq_nil, slotFaults_effective,
    and_assoc]

end SymbolTable

namespace Effect

variable {effect : Effect}

/-- A type that is builtin or a structure of the effect. -/
def Declares (effect : Effect) : DataType → Prop
  | .builtin _ => True
  | .user name => ∃ s ∈ effect.structures, s.name = name.text

instance (effect : Effect) : DecidablePred effect.Declares
  | .builtin _ => inferInstanceAs (Decidable True)
  | .user name => inferInstanceAs (Decidable (∃ s ∈ effect.structures, s.name = name.text))

/-- Nothing is wrong with the declarations of an effect. -/
structure WellDeclared (effect : Effect) : Prop where
  /-- The names are different, over all sorts of declarations. -/
  names : (effect.symbols.map (·.name)).Nodup
  members : ∀ s ∈ effect.structures, ∀ member ∈ s.members, effect.Declares member.type
  /-- No structure has a member of its own type. -/
  nesting : ∀ s ∈ effect.structures, ∀ member ∈ s.members, member.type.userName? ≠ some s.name
  globals : ∀ v ∈ effect.globals, effect.Declares v.type
  results : ∀ f ∈ effect.functions, effect.Declares f.returnType
  parameters : ∀ f ∈ effect.functions, ∀ p ∈ f.parameters, effect.Declares p.type
  inputs : ∀ f ∈ effect.functions, f.inputSlots.Nodup
  outputs : ∀ f ∈ effect.functions, f.outputSlots.Nodup

instance (effect : Effect) : Decidable effect.WellDeclared :=
  decidable_of_iff
    ((effect.symbols.map (·.name)).Nodup ∧
      (∀ s ∈ effect.structures, ∀ member ∈ s.members,
        effect.Declares member.type ∧ member.type.userName? ≠ some s.name) ∧
      (∀ v ∈ effect.globals, effect.Declares v.type) ∧
      ∀ f ∈ effect.functions, effect.Declares f.returnType ∧
        (∀ p ∈ f.parameters, effect.Declares p.type) ∧ f.inputSlots.Nodup ∧ f.outputSlots.Nodup)
    ⟨fun ⟨names, structures, globals, functions⟩ =>
      ⟨names, fun s hs member hm => (structures s hs member hm).1,
        fun s hs member hm => (structures s hs member hm).2, globals, fun f hf => (functions f hf).1,
        fun f hf => (functions f hf).2.1, fun f hf => (functions f hf).2.2.1,
        fun f hf => (functions f hf).2.2.2⟩,
      fun h => ⟨h.names, fun s hs member hm => ⟨h.members s hs member hm, h.nesting s hs member hm⟩,
        h.globals, fun f hf => ⟨h.results f hf, h.parameters f hf, h.inputs f hf, h.outputs f hf⟩⟩⟩

/-- In a table of all declarations without repetition, the structures of the effect are found. -/
theorem declares_iff (h : (SymbolTable.mk effect.symbols).Distinct) {type : DataType} :
    (∀ n, type.userName? = some n →
      ∃ s, (SymbolTable.mk effect.symbols).get? n = some (.aggregate s)) ↔ effect.Declares type := by
  cases type with
  | builtin kind => simp [DataType.userName?, Declares]
  | user name =>
    simp only [DataType.userName?, Option.some.injEq, forall_eq', Declares]
    constructor
    · rintro ⟨s, hs⟩
      have hmem := SymbolTable.mem_of_get? hs
      exact ⟨s, by simpa [symbols] using hmem, SymbolTable.name_of_get? hs⟩
    · rintro ⟨s, hs, hname⟩
      have hmem : Symbol.aggregate s ∈ effect.symbols := by simp [symbols, hs]
      rw [← hname]
      exact ⟨s, h.get? hmem⟩

/-- If all names are different, then all declarations are registered and checked. -/
theorem check_of_distinct (h : (SymbolTable.mk effect.symbols).Distinct) :
    effect.check .empty =
      let t : SymbolTable := ⟨effect.symbols⟩
      ⟨t, effect.structures.flatMap t.structureFaults ++
        (effect.globals.flatMap fun v => t.typeFaults v.name v.location v.type) ++
        effect.functions.flatMap t.functionFaults⟩ := by
  -- each list is registered in the table of those before it, whose names are different as well
  have hfour := h.left
  have hthree := hfour.left
  have htwo := hthree.left
  have hone : SymbolTable.empty.registerAll .aggregate effect.structures =
      ⟨⟨effect.structures.map .aggregate⟩, effect.structures, []⟩ :=
    SymbolTable.registerAll_of_distinct (t := .empty) htwo.left
  unfold check
  rw [hone]
  dsimp only
  rw [SymbolTable.registerAll_of_distinct htwo]
  dsimp only
  rw [SymbolTable.registerAll_of_distinct hthree]
  dsimp only
  rw [SymbolTable.registerAll_of_distinct hfour]
  dsimp only
  rw [SymbolTable.registerAll_of_distinct h]
  rfl

/-- Without a redefinition the table holds all declarations, and a table never holds a name twice. -/
theorem distinct_of_check (h : (effect.check .empty).faults = []) :
    (SymbolTable.mk effect.symbols).Distinct := by
  have hdistinct : (effect.check .empty).table.Distinct :=
    SymbolTable.distinct_empty.registerAll.registerAll.registerAll.registerAll.registerAll
  unfold check at h hdistinct
  dsimp only at hdistinct
  simp only [List.append_eq_nil_iff] at h
  obtain ⟨⟨⟨⟨⟨⟨⟨hone, htwo⟩, hthree⟩, hfour⟩, hfive⟩, -⟩, -⟩, -⟩ := h
  -- no list has a redefinition, so each has gone into the table as a whole
  rw [SymbolTable.registerAll_of_no_faults hone] at htwo hthree hfour hfive hdistinct
  rw [SymbolTable.registerAll_of_no_faults htwo] at hthree hfour hfive hdistinct
  rw [SymbolTable.registerAll_of_no_faults hthree] at hfour hfive hdistinct
  rw [SymbolTable.registerAll_of_no_faults hfour] at hfive hdistinct
  rw [SymbolTable.registerAll_of_no_faults hfive] at hdistinct
  exact hdistinct

theorem faults_check_eq_nil : (effect.check .empty).faults = [] ↔ effect.WellDeclared := by
  by_cases h : (SymbolTable.mk effect.symbols).Distinct
  · have hself (s : Structure) (hs : s ∈ effect.structures) :
        (SymbolTable.mk effect.symbols).get? s.name = some (.aggregate s) := by
      have hmem : Symbol.aggregate s ∈ effect.symbols := by simp [symbols, hs]
      exact h.get? hmem
    rw [check_of_distinct h]
    simp only [List.append_eq_nil_iff, List.flatMap_eq_nil_iff, SymbolTable.typeFaults_eq_nil,
      SymbolTable.functionFaults_eq_nil, declares_iff h]
    constructor
    · rintro ⟨⟨hstructures, hglobals⟩, hfunctions⟩
      have hmembers (s : Structure) (hs : s ∈ effect.structures) :=
        (SymbolTable.structureFaults_eq_nil (hself s hs)).mp (hstructures s hs)
      exact
        { names := h
          members := fun s hs member hmember => (declares_iff h).mp (hmembers s hs member hmember).2
          nesting := fun s hs member hmember => (hmembers s hs member hmember).1
          globals := hglobals
          results := fun f hf => (hfunctions f hf).1
          parameters := fun f hf => (hfunctions f hf).2.1
          inputs := fun f hf => (hfunctions f hf).2.2.1
          outputs := fun f hf => (hfunctions f hf).2.2.2 }
    · intro hgood
      refine ⟨⟨fun s hs => ?_, hgood.globals⟩, fun f hf => ?_⟩
      · apply (SymbolTable.structureFaults_eq_nil (hself s hs)).mpr
        intro member hmember
        exact ⟨hgood.nesting s hs member hmember,
          (declares_iff h).mpr (hgood.members s hs member hmember)⟩
      · exact ⟨hgood.results f hf, hgood.parameters f hf, hgood.inputs f hf, hgood.outputs f hf⟩
  · -- a name that is taken is reported, so neither side holds
    exact iff_of_false (fun hnone => h (distinct_of_check hnone)) fun hgood => h hgood.names

end Effect

/-- An empty queue that is given errors counts none only if there are none. -/
theorem Queue.errors_addAll_empty {config : QueueConfig} {ds : List Diagnostic}
    (h : ∀ d ∈ ds, d.isError = true) : ((Queue.empty config).addAll ds).errors = 0 ↔ ds = [] := by
  have hcount : ((Queue.empty config).addAll ds).errors = 0 ↔
      ∀ d ∈ ds, (Queue.empty config).seen d = true := errors_addAll_eq_iff h
  rw [hcount, List.eq_nil_iff_forall_not_mem]
  refine forall₂_congr fun d _ => ?_
  rw [seen_iff]
  exact iff_of_false (fun hseen => List.not_mem_nil hseen.2) id

/-- From an empty table and an empty queue, the check of an effect leaves the error count at zero exactly
if nothing is wrong with the declarations. Then the table has each of them under its name. In any case a
name leads to the first declaration that has it. -/
theorem Effect.check_exact (effect : Effect) (config : QueueConfig) :
    (((Queue.empty config).addAll (effect.check .empty).faults).errors = 0 ↔ effect.WellDeclared) ∧
    (effect.WellDeclared →
      ∀ s ∈ effect.symbols, (effect.check .empty).table.get? s.name = some s) ∧
    ∀ n, (effect.check .empty).table.get? n = effect.symbols.find? (·.name == n) := by
  refine ⟨?_, fun hgood s hs => ?_, effect.get?_check⟩
  · rw [Queue.errors_addAll_empty fun d hd => (effect.flaws_check .empty d hd).1]
    exact faults_check_eq_nil
  · have hdistinct : (SymbolTable.mk effect.symbols).Distinct := hgood.names
    rw [check_of_distinct hdistinct]
    exact hdistinct.get? hs

def grove : Location := ⟨"orchard.json", 1⟩

def apple : Structure := ⟨"Apple", grove, [⟨"weight", .builtin .float, none, grove, .input, none, none⟩]⟩

/-- A branch bears apples, which are declared after it. The inputs of `pick` lie in slots 1 and 0. -/
def orchard : Effect :=
  { name := "orchard", file := "orchard.json"
    structures :=
      [⟨"Branch", grove, [⟨"fruit", .user ⟨"Apple", by decide⟩, some 4, grove, .input, none, none⟩]⟩,
       apple]
    globals := [⟨"bough", grove, .user ⟨"Branch", by decide⟩, none, false⟩]
    subroutines := [], renderStates := []
    functions :=
      [{ name := "pick", location := grove, returnType := .user ⟨"Apple", by decide⟩
         parameters :=
           [⟨"branch", .user ⟨"Branch", by decide⟩, none, grove, .input, some 1, none⟩,
            ⟨"ripeness", .builtin .float, none, grove, .both, some 0, none⟩]
         isShader := false, attributes := .none, code := "" }]
    programs := [] }

/-- The second input of `graft` has slot 1 for its position, which the first has chosen. -/
def graftedOrchard : Effect :=
  { orchard with
    functions :=
      [{ name := "graft", location := grove, returnType := .builtin .void
         parameters :=
           [⟨"scion", .builtin .float, none, grove, .input, some 1, none⟩,
            ⟨"stock", .builtin .float, none, grove, .input, none, none⟩]
         isShader := false, attributes := .none, code := "" }] }

theorem Effect.check_exact_orchard :
    orchard.WellDeclared ∧
    ((Queue.empty .unlimited).addAll (orchard.check .empty).faults).errors = 0 ∧
    (orchard.check .empty).table.get? "Apple" = some (.aggregate apple) ∧
    ¬graftedOrchard.WellDeclared ∧
    ((Queue.empty .unlimited).addAll (graftedOrchard.check .empty).faults).errors ≠ 0 := by
  have hgood : orchard.WellDeclared := by decide
  have hbad : ¬graftedOrchard.WellDeclared := by decide
  obtain ⟨hcount, hfound, -⟩ := check_exact orchard .unlimited
  refine ⟨hgood, hcount.mpr hgood, hfound hgood (.aggregate apple) (by decide), hbad, fun hzero => ?_⟩
  exact hbad ((check_exact graftedOrchard .unlimited).1.mp hzero)

end EffectLink
