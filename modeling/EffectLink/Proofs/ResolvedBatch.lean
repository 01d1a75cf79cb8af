import EffectLink.Proofs.ResolvedStages
import EffectLink.Proofs.ValidatedBatch

namespace EffectLink

/-- No function, interface or implementation is named with the punctuation of identities. -/
structure Effect.PlainNames (effect : Effect) : Prop where
  functions : ∀ f ∈ effect.functions, PlainName f.name
  interfaces : ∀ v ∈ effect.globals, v.isPrototype = true → PlainName v.name
  implementations : ∀ r ∈ effect.subroutines, r.kind = .implementation → PlainName r.name

/-- The same of the names that a table answers. -/
structure SymbolTable.PlainNames (t : SymbolTable) : Prop where
  functions : ∀ n f, t.get? n = some (.function f) → PlainName n
  interfaces : ∀ n v, t.get? n = some (.global v) → v.isPrototype = true → PlainName n
  implementations : ∀ n r, t.get? n = some (.subroutine r) → r.kind = .implementation → PlainName n

theorem Effect.PlainNames.table {effect : Effect} {t : SymbolTable} (h : effect.PlainNames)
    (ht : (effect.check .empty).table.AddsPrograms t) : t.PlainNames := by
  have hget (n : String) (s : Symbol) (hk : s.kind ≠ .program) (hs : t.get? n = some s) :
      (SymbolTable.mk effect.symbols).get? n = some s := by
    rw [← effect.get?_check]
    exact (ht.get?_iff hk).mp hs
  constructor
  · intro n f hf
    have hfound := Effect.find?_function_of_get? (hget n _ (fun hk => SymbolKind.noConfusion hk) hf)
    have hname : f.name = n := SymbolTable.name_of_get? hf
    rw [← hname]
    exact h.functions f (List.mem_of_find?_eq_some hfound)
  · intro n v hv hp
    have hmem := Effect.mem_globals_of_get? (hget n _ (fun hk => SymbolKind.noConfusion hk) hv)
    have hname : v.name = n := SymbolTable.name_of_get? hv
    rw [← hname]
    exact h.interfaces v hmem hp
  · intro n r hr hk
    have hmem := Effect.mem_subroutines_of_get? (hget n _ (fun hk => SymbolKind.noConfusion hk) hr)
    have hname : r.name = n := SymbolTable.name_of_get? hr
    rw [← hname]
    exact h.implementations r hmem hk

/-- A shader that its identity describes, of a function that the table knows by its name. -/
structure Shader.Formed (symbols : SymbolTable) (header : Header) (a : Shader) : Prop where
  identity : a.identity = shaderIdentity a.function.name a.bindings
  declared : symbols.get? a.function.name = some (.function a.function)
  bound : header.switches.staticBindings = true →
    PlainName a.function.name ∧ ∀ e ∈ a.bindings.entries, PlainName e.1 ∧ PlainName e.2
  unbound : header.switches.staticBindings = false → a.bindings = ∅

/-- Shaders with one identity have one function and one set of bindings. -/
theorem Shader.Formed.eq_of_identity {symbols : SymbolTable} {header : Header} {a b : Shader}
    (ha : a.Formed symbols header) (hb : b.Formed symbols header) (h : a.identity = b.identity) :
    a.function = b.function ∧ a.bindings = b.bindings := by
  rw [ha.identity, hb.identity] at h
  have hparts : a.function.name = b.function.name ∧ a.bindings = b.bindings := by
    by_cases hs : header.switches.staticBindings = true
    · exact shaderIdentity_injective (ha.bound hs).1 (hb.bound hs).1 (ha.bound hs).2 (hb.bound hs).2 h
    · have hs' : header.switches.staticBindings = false := Bool.not_eq_true _ ▸ hs
      rw [ha.unbound hs', hb.unbound hs'] at h ⊢
      exact ⟨h, rfl⟩
  have hdeclared := ha.declared
  rw [hparts.1, hb.declared] at hdeclared
  exact ⟨(Symbol.function.inj (Option.some.inj hdeclared)).symm, hparts.2⟩

namespace Program

variable {symbols : SymbolTable} {header : Header} {p : Program}

theorem formed_requested (hp : p.Resolvable symbols)
    (hplain : header.switches.staticBindings = true → symbols.PlainNames) {stage : Stage}
    {slot : StageSlot} {f : Function} (hslot : p.slot stage = some slot)
    (hf : symbols.get? slot.function = some (.function f)) :
    (p.requested header stage slot f).Formed symbols header := by
  have hname : f.name = slot.function := SymbolTable.name_of_get? hf
  refine ⟨rfl, ?_, fun hs => ⟨?_, fun e he => ?_⟩, fun hs => ?_⟩
  · change symbols.get? f.name = _
    rw [hname]
    exact hf
  · change PlainName f.name
    rw [hname]
    exact (hplain hs).functions _ f hf
  · change e ∈ (header.builtIn slot.bindings).entries at he
    rw [Header.builtIn, if_pos hs] at he
    obtain ⟨v, hv, hkind⟩ := hp.interfaces stage slot hslot e he
    obtain ⟨r, hr, hkind'⟩ := hp.implementations stage slot hslot e he
    exact ⟨(hplain hs).interfaces _ v hv hkind, (hplain hs).implementations _ r hr hkind'⟩
  · change header.builtIn slot.bindings = ∅
    rw [Header.builtIn, hs]
    rfl

theorem Requests.formed (hp : p.Resolvable symbols)
    (hplain : header.switches.staticBindings = true → symbols.PlainNames) {a : Shader}
    (h : p.Requests symbols header a) : a.Formed symbols header := by
  obtain ⟨stage, slot, f, hslot, hf, rfl⟩ := h
  exact formed_requested hp hplain hslot hf

/-- In a pool of shaders that their identities describe, a stage has found what it asked for; only the
compile flags may be those of another program. -/
theorem Settled.pooled {pool : Pool} (hp : p.Resolvable symbols)
    (hplain : header.switches.staticBindings = true → symbols.PlainNames)
    (hpool : ∀ a ∈ pool.shaders, a.Formed symbols header) {stage : Stage}
    {before after : StageSlot} (hbefore : p.slot stage = some before)
    (h : p.Settled symbols header pool stage before after) :
    ∃ f id flags, symbols.get? before.function = some (.function f) ∧
      after = { before with
        shaderName := (p.requested header stage before f).identity
        bindings := header.leftOver before.bindings
        shader := some id } ∧
      pool.get? id = some { p.requested header stage before f with compileFlags := flags } := by
  obtain ⟨f, id, found, hf, hafter, hfound, hstage, hidentity⟩ := h
  obtain ⟨hfunction, hbindings⟩ := (hpool found (List.mem_of_getElem? hfound)).eq_of_identity
    (formed_requested hp hplain hbefore hf) hidentity
  refine ⟨f, id, found.compileFlags, hf, hafter, ?_⟩
  rw [hfound]
  exact congrArg some (Shader.ext hstage hidentity hfunction rfl hbindings)

end Program

namespace Linker

section Batch

variable {symbols : SymbolTable} {programs : List LinkedProgram} (header : Header) (pool : Pool)

/-- The programs that are still going on name nothing that is not declared. -/
def Ready (symbols : SymbolTable) (programs : List LinkedProgram) : Prop :=
  ∀ linked ∈ programs, linked.ok = true → linked.program.Resolvable symbols

theorem Ready.tail {linked : LinkedProgram} (h : Ready symbols (linked :: programs)) :
    Ready symbols programs :=
  fun later hmem => h later (List.mem_cons_of_mem _ hmem)

/-- How the pool has changed once all programs have their shaders. -/
structure Pooled (symbols : SymbolTable) (header : Header) (programs : List LinkedProgram)
    (pool later : Pool) : Prop where
  grows : pool.Extends later
  distinct : pool.Distinct → later.Distinct
  members : ∀ a ∈ later.shaders, a ∈ pool.shaders ∨
    ∃ linked ∈ programs, linked.ok = true ∧ linked.program.Requests symbols header a

theorem resolveAll_cons_of_ok {linked : LinkedProgram} (h : linked.ok = true) :
    resolveAll symbols header pool (linked :: programs) =
      let r := linked.program.resolve symbols header pool
      let more := resolveAll symbols header r.pool programs
      ⟨⟨r.program, r.ok⟩ :: more.programs, more.pool, r.diagnostics ++ more.diagnostics⟩ := by
  rw [resolveAll, if_pos h]

theorem resolveAll_cons_of_not_ok {linked : LinkedProgram} (h : ¬linked.ok = true) :
    resolveAll symbols header pool (linked :: programs) =
      let more := resolveAll symbols header pool programs
      ⟨linked :: more.programs, more.pool, more.diagnostics⟩ := by
  rw [resolveAll, if_neg h]

theorem pooled_resolveAll (h : Ready symbols programs) :
    Pooled symbols header programs pool (resolveAll symbols header pool programs).pool := by
  induction programs generalizing pool with
  | nil => exact ⟨Pool.Extends.refl pool, id, fun _ ha => Or.inl ha⟩
  | cons linked programs ih =>
    by_cases hok : linked.ok = true
    · have hr := Program.resolving_resolve header pool (h linked List.mem_cons_self hok)
      have hmore := ih (linked.program.resolve symbols header pool).pool h.tail
      rw [resolveAll_cons_of_ok header pool hok]
      refine ⟨hr.grows.trans hmore.grows, hmore.distinct ∘ hr.distinct, fun a ha => ?_⟩
      rcases hmore.members a ha with ha | ⟨l, hl, hlater⟩
      · exact (hr.members a ha).imp_right fun hreq => ⟨linked, List.mem_cons_self, hok, hreq⟩
      · exact Or.inr ⟨l, List.mem_cons_of_mem _ hl, hlater⟩
    · have hmore := ih pool h.tail
      rw [resolveAll_cons_of_not_ok header pool hok]
      refine ⟨hmore.grows, hmore.distinct, fun a ha => ?_⟩
      exact (hmore.members a ha).imp_right fun ⟨l, hl, hlater⟩ =>
        ⟨l, List.mem_cons_of_mem _ hl, hlater⟩

/-- Names and statuses stay as they are. -/
theorem names_resolveAll (h : Ready symbols programs) :
    (resolveAll symbols header pool programs).programs.map (fun l => (l.program.name, l.ok)) =
      programs.map fun l => (l.program.name, l.ok) := by
  induction programs generalizing pool with
  | nil => rfl
  | cons linked programs ih =>
    by_cases hok : linked.ok = true
    · have hr := Program.resolving_resolve header pool (h linked List.mem_cons_self hok)
      rw [resolveAll_cons_of_ok header pool hok, List.map_cons, List.map_cons, ih _ h.tail, hr.ok,
        hr.frame, hok]
    · rw [resolveAll_cons_of_not_ok header pool hok, List.map_cons, List.map_cons, ih _ h.tail]

/-- A program that is still going on gets its shaders from the pool as it is then, which the final
pool extends. -/
theorem getElem?_resolveAll_of_ok (h : Ready symbols programs) {i : Nat} {linked : LinkedProgram}
    (hi : programs[i]? = some linked) (hok : linked.ok = true) :
    ∃ before r, (resolveAll symbols header pool programs).programs[i]? = some ⟨r.program, true⟩ ∧
      linked.program.Resolving symbols header before Stage.all.reverse r ∧
      r.pool.Extends (resolveAll symbols header pool programs).pool := by
  induction programs generalizing pool i with
  | nil => contradiction
  | cons first programs ih =>
    cases i with
    | zero =>
      cases hi
      have hr := Program.resolving_resolve header pool (h linked List.mem_cons_self hok)
      refine ⟨pool, linked.program.resolve symbols header pool, ?_, hr, ?_⟩
      · rw [resolveAll_cons_of_ok header pool hok, ← hr.ok]
        rfl
      · rw [resolveAll_cons_of_ok header pool hok]
        exact (pooled_resolveAll header _ h.tail).grows
    | succ i =>
      by_cases hfirst : first.ok = true
      · rw [resolveAll_cons_of_ok header pool hfirst]
        exact ih _ h.tail hi
      · rw [resolveAll_cons_of_not_ok header pool hfirst]
        exact ih _ h.tail hi

/-- A program that was given up stays as it is. -/
theorem getElem?_resolveAll_of_not_ok {i : Nat} {linked : LinkedProgram}
    (hi : programs[i]? = some linked) (hok : ¬linked.ok = true) :
    (resolveAll symbols header pool programs).programs[i]? = some linked := by
  induction programs generalizing pool i with
  | nil => contradiction
  | cons first programs ih =>
    cases i with
    | zero =>
      cases hi
      rw [resolveAll_cons_of_not_ok header pool hok]
      rfl
    | succ i =>
      by_cases hfirst : first.ok = true
      · rw [resolveAll_cons_of_ok header pool hfirst]
        exact ih _ hi
      · rw [resolveAll_cons_of_not_ok header pool hfirst]
        exact ih _ hi

end Batch

variable (job : Job) (effect : Effect) (s : Session)

/-- The names that an effect and its programs declare. -/
def symbols : SymbolTable :=
  (validateAll job.options (effect.check .empty).table effect.programs).table

/-- Whether the declarations of an effect add nothing to the error count of the queue. -/
def sound : Bool := (s.report (effect.check .empty).faults).queue.errors == s.queue.errors

/-- The programs after validation. Those go on that have passed, unless a declaration is at fault. -/
def admitted : List LinkedProgram :=
  (validateAll job.options (effect.check .empty).table effect.programs).programs.map
    fun linked => { linked with ok := linked.ok && sound effect s }

/-- The programs with their shaders. -/
def resolution : ResolvedAll :=
  resolveAll (symbols job effect) job.header .empty (admitted job effect s)

/-- The session once everything up to the shaders is reported. -/
def reported : Session :=
  ((s.report (effect.check .empty).faults).report
    (validateAll job.options (effect.check .empty).table effect.programs).faults).report
    (resolution job effect s).diagnostics

/-- A link run whose last phase is `linkPrograms`. -/
def linkBy {U : Type} (linkPrograms : List (Option U) → List LinkedProgram → Session →
    Session × List LinkedProgram) (backend : Backend U) (medium : Medium := Disk.writeBelow) :
    Session × LinkedEffect :=
  let resolved := resolution job effect s
  let compiled := units job backend resolved.pool (reported job effect s) medium
  let final := linkPrograms compiled.2 resolved.programs compiled.1
  (final.1, ⟨final.2, resolved.pool⟩)

theorem link_eq {U : Type} {medium : Medium} (backend : Backend U) :
    link job backend effect s medium = linkBy job effect s (linkAll job backend) backend medium := rfl

theorem addsPrograms_symbols :
    (effect.check .empty).table.AddsPrograms (symbols job effect) :=
  addsPrograms_validateAll _ _ _

theorem getElem?_admitted (i : Nat) :
    (admitted job effect s)[i]? = effect.programs[i]?.map fun decl =>
      let t := (validateAll job.options (effect.check .empty).table (effect.programs.take i)).table
      let v := (Program.ofDecl decl).validate t job.options
      ⟨v.program, v.faults.isEmpty && sound effect s⟩ := by
  rw [admitted, List.getElem?_map, getElem?_validateAll, Option.map_map]
  rfl

/-- A program that passes next to some others finds all its names among those of the whole effect. -/
theorem resolvable_of_passed {job : Job} {effect : Effect} {before : List ProgramDecl} {p : Program}
    (h : (p.validate (validateAll job.options (effect.check .empty).table before).table
      job.options).faults = []) :
    (p.validate (validateAll job.options (effect.check .empty).table before).table
      job.options).program.Resolvable (symbols job effect) := by
  obtain ⟨-, -, hresolvable⟩ := Program.validate_passed h
  -- both tables are the declarations with some programs added
  refine hresolvable.congr (SymbolTable.AddsPrograms.agrees ?_ (addsPrograms_symbols job effect))
  exact (addsPrograms_validateAll _ _ _).trans Program.addsPrograms_validate

/-- A program that goes on is its declaration, with a patch size, and names only what is declared. -/
theorem program_admitted {job : Job} {effect : Effect} {s : Session} {i : Nat}
    {linked : LinkedProgram} (hi : (admitted job effect s)[i]? = some linked)
    (hok : linked.ok = true) :
    ∃ decl size, effect.programs[i]? = some decl ∧
      linked.program = { Program.ofDecl decl with patchSize := size } ∧
      linked.program.Resolvable (symbols job effect) := by
  rw [getElem?_admitted] at hi
  obtain ⟨decl, hdecl, rfl⟩ := Option.map_eq_some_iff.mp hi
  obtain ⟨hfaults, -⟩ := Bool.and_eq_true_iff.mp hok
  obtain ⟨size, hsize⟩ := Program.validate_program (p := Program.ofDecl decl)
  exact ⟨decl, size, hdecl, hsize, resolvable_of_passed (List.isEmpty_iff.mp hfaults)⟩

theorem ready_admitted : Ready (symbols job effect) (admitted job effect s) := by
  intro linked hmem hok
  obtain ⟨i, hi⟩ := List.mem_iff_getElem?.mp hmem
  obtain ⟨-, -, -, -, hresolvable⟩ := program_admitted hi hok
  exact hresolvable

/-- A program that still goes on with its shaders did so before, and got them from the pool of that
moment. -/
theorem getElem?_resolution {job : Job} {effect : Effect} {s : Session} {i : Nat}
    {linked : LinkedProgram} (hi : (resolution job effect s).programs[i]? = some linked)
    (hok : linked.ok = true) :
    ∃ before start r, (admitted job effect s)[i]? = some before ∧ before.ok = true ∧
      linked.program = r.program ∧
      before.program.Resolving (symbols job effect) job.header start Stage.all.reverse r ∧
      r.pool.Extends (resolution job effect s).pool := by
  have hready := ready_admitted job effect s
  have hlength : i < (admitted job effect s).length := by
    have hlt := (List.getElem?_eq_some_iff.mp hi).1
    have hnames := congrArg List.length (names_resolveAll job.header .empty hready)
    rw [List.length_map, List.length_map] at hnames
    exact hnames ▸ hlt
  have hbefore : (admitted job effect s)[i]? = some (admitted job effect s)[i] :=
    List.getElem?_eq_getElem hlength
  by_cases hgood : (admitted job effect s)[i].ok = true
  · obtain ⟨start, r, hat, hr, hextends⟩ :=
      getElem?_resolveAll_of_ok job.header .empty hready hbefore hgood
    rw [resolution, hat] at hi
    cases hi
    exact ⟨_, start, r, hbefore, hgood, rfl, hr, hextends⟩
  · have hat : (resolution job effect s).programs[i]? = some (admitted job effect s)[i] :=
      getElem?_resolveAll_of_not_ok job.header .empty hbefore hgood
    rw [hat] at hi
    rw [Option.some.inj hi] at hgood
    exact absurd hok hgood

theorem length_resolution :
    (resolution job effect s).programs.length = effect.programs.length := by
  have h := congrArg List.length
    (names_resolveAll job.header .empty (ready_admitted job effect s))
  rw [List.length_map, List.length_map] at h
  rw [resolution, h, admitted, List.length_map, length_validateAll]

theorem statuses_resolution :
    (resolution job effect s).programs.map (·.ok) = (admitted job effect s).map (·.ok) := by
  have h := congrArg (List.map Prod.snd)
    (names_resolveAll job.header .empty (ready_admitted job effect s))
  rw [List.map_map, List.map_map] at h
  exact h

theorem names_resolution :
    (resolution job effect s).programs.map (·.program.name) = effect.programs.map (·.name) := by
  have h := congrArg (List.map Prod.fst)
    (names_resolveAll job.header .empty (ready_admitted job effect s))
  rw [List.map_map, List.map_map] at h
  calc (resolution job effect s).programs.map (·.program.name)
      = (admitted job effect s).map (·.program.name) := h
    _ = effect.programs.map (·.name) := by
      rw [admitted, List.map_map]
      exact names_validateAll job.options _ effect.programs

/-- The programs that go on have names of their own. -/
theorem pairwise_names_resolution :
    (resolution job effect s).programs.Pairwise fun a b =>
      a.ok = true → b.ok = true → a.program.name ≠ b.program.name := by
  have hadmitted : (admitted job effect s).Pairwise fun a b =>
      a.ok = true → b.ok = true → a.program.name ≠ b.program.name := by
    refine List.pairwise_map.mpr ((pairwise_names_validateAll _ _ _).imp fun h hok hok' => ?_)
    exact h (Bool.and_eq_true_iff.mp hok).1 (Bool.and_eq_true_iff.mp hok').1
  have hnamed (programs : List LinkedProgram) :
      (programs.Pairwise fun a b => a.ok = true → b.ok = true → a.program.name ≠ b.program.name) ↔
      (programs.map fun l => (l.program.name, l.ok)).Pairwise fun a b =>
        a.2 = true → b.2 = true → a.1 ≠ b.1 := by
    rw [List.pairwise_map]
  rw [hnamed, resolution, names_resolveAll _ _ (ready_admitted job effect s), ← hnamed]
  exact hadmitted

theorem distinct_resolution : (resolution job effect s).pool.Distinct :=
  (pooled_resolveAll _ _ (ready_admitted job effect s)).distinct Pool.distinct_empty

theorem formed_resolution {job : Job} {effect : Effect} {s : Session}
    (hplain : job.header.switches.staticBindings = true → effect.PlainNames) {a : Shader}
    (ha : a ∈ (resolution job effect s).pool.shaders) :
    a.Formed (symbols job effect) job.header := by
  have hready := ready_admitted job effect s
  rcases (pooled_resolveAll _ _ hready).members a ha with ha | ⟨linked, hmem, hok, hreq⟩
  · exact absurd ha List.not_mem_nil
  · exact hreq.formed (hready linked hmem hok) fun hs =>
      (hplain hs).table (addsPrograms_symbols job effect)

end Linker

end EffectLink
