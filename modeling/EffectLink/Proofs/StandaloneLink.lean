import EffectLink.Proofs.OwnPermutation
import EffectLink.Proofs.RenumberedLink

/-! A program of a batch is linked as if it were the only one. The two runs have different symbol
tables, pools and shader ids; the shaders found under the ids are the same. -/

namespace EffectLink

/-- The effect with one program only. -/
def Effect.only (effect : Effect) (decl : ProgramDecl) : Effect := { effect with programs := [decl] }

theorem Effect.PlainNames.only {effect : Effect} (h : effect.PlainNames) (decl : ProgramDecl) :
    (effect.only decl).PlainNames :=
  ⟨h.functions, h.interfaces, h.implementations⟩

namespace Program

variable {p : Program} {header : Header} {symbols symbols' : SymbolTable} {pool pool' : Pool}

/-- `q` is `p` with a shader for each of its stages, and every shader is just what `p` asks for, compile
flags included. -/
structure Shaded (symbols : SymbolTable) (header : Header) (pool : Pool) (p q : Program) : Prop where
  frame : q = { p with slots := q.slots }
  settled : ∀ stage slot, p.slot stage = some slot →
    ∃ f id, symbols.get? slot.function = some (.function f) ∧
      q.slots.get stage = { slot with
        shaderName := (p.requested header stage slot f).identity
        bindings := header.leftOver slot.bindings
        shader := some id } ∧
      pool.get? id = some (p.requested header stage slot f)
  untouched : ∀ stage, p.slot stage = none → q.slots.get stage = p.slots.get stage

theorem Resolving.shaded {start : Pool} {r : Resolved} (hp : p.Resolvable symbols)
    (hplain : header.switches.staticBindings = true → symbols.PlainNames)
    (hformed : ∀ a ∈ pool.shaders, a.Formed symbols header)
    (hr : p.Resolving symbols header start Stage.all.reverse r) (hpool : r.pool.Extends pool)
    (hflags : ∀ stage slot id a, r.program.slot stage = some slot → slot.shader = some id →
      pool.get? id = some a → a.compileFlags = p.compileFlags) :
    p.Shaded symbols header pool r.program := by
  refine ⟨hr.frame, fun stage slot hslot => ?_, fun stage hslot => hr.untouched stage (Or.inr hslot)⟩
  obtain ⟨f, id, flags, hf, hafter, hget⟩ :=
    ((hr.settled_all hslot).mono hpool).pooled hp hplain hformed hslot
  have hpopulated : slot.populated = true := (slot_eq_some.mp hslot).2
  have hown := hflags stage _ id _ (slot_eq_some.mpr ⟨hafter, hpopulated⟩) rfl hget
  dsimp only at hown
  rw [hown] at hget
  exact ⟨f, id, hf, hafter, hget⟩

/-- Two runs that give a program the shaders it asks for differ in the ids at most. -/
theorem Shaded.renumbers {q q' : Program} (h : p.Shaded symbols header pool q)
    (h' : p.Shaded symbols' header pool' q') (hagrees : symbols.Agrees symbols')
    (hvacant : ∀ stage, p.slot stage = none → (p.slots.get stage).shader = none) :
    q.Renumbers pool pool' q' := by
  have hstage (stage : Stage) :
      q'.slots.get stage = { q.slots.get stage with shader := (q'.slots.get stage).shader } ∧
      (q'.slots.get stage).shader.bind pool'.get? = (q.slots.get stage).shader.bind pool.get? := by
    cases hslot : p.slot stage with
    | none =>
      rw [h.untouched stage hslot, h'.untouched stage hslot, hvacant stage hslot]
      exact ⟨by rw [← hvacant stage hslot], rfl⟩
    | some slot =>
      obtain ⟨f, id, hf, hafter, hget⟩ := h.settled stage slot hslot
      obtain ⟨f', id', hf', hafter', hget'⟩ := h'.settled stage slot hslot
      have hsame : f' = f := by
        have hfound := hagrees.function.mp hf
        rw [hf'] at hfound
        exact Symbol.function.inj (Option.some.inj hfound)
      subst hsame
      rw [hafter, hafter']
      exact ⟨rfl, hget'.trans hget.symm⟩
  refine ⟨?_, fun stage => (hstage stage).1, fun stage => (hstage stage).2⟩
  have hframe := congrArg (fun r : Program => { r with slots := q'.slots }) h.frame
  exact h'.frame.trans hframe.symm

theorem Requests.compileFlags_eq {a : Shader} (h : p.Requests symbols header a) :
    a.compileFlags = p.compileFlags := by
  obtain ⟨stage, slot, f, -, -, rfl⟩ := h
  rfl

end Program

namespace Linker

variable {U : Type} {job : Job} {effect : Effect} {s : Session} {medium : Medium}

/-- The unit of a shader, which depends on nothing but the shader. -/
def compiledUnit (job : Job) (backend : Backend U) (shader : Shader) : Option U :=
  match job.generate job.header shader with
  | .error _ => none
  | .ok source => (backend.compile job.header shader.identity shader.stage source).toOption

theorem unit_compileShader (backend : Backend U) (s : Session) (shader : Shader) (medium : Medium) :
    (compileShader job backend s shader medium).2 = compiledUnit job backend shader := by
  unfold compileShader compiledUnit
  cases job.generate job.header shader with
  | error message => rfl
  | ok source =>
    dsimp only
    cases backend.compile job.header shader.identity shader.stage source <;> rfl

theorem units_compileAll (backend : Backend U) (s : Session) (shaders : List Shader) :
    (compileAll job backend s shaders medium).2 = shaders.map (compiledUnit job backend) := by
  induction shaders generalizing s with
  | nil => rfl
  | cons shader rest ih =>
    rw [List.map_cons, ← unit_compileShader backend s shader medium, ← ih]
    rfl

theorem units_eq (backend : Backend U) (pool : Pool) (s : Session) :
    (units job backend pool s medium).2 =
      Program.unitsOf (compiledUnit job backend) job.header pool := by
  unfold units Program.unitsOf
  split
  · exact units_compileAll backend s pool.shaders
  · rfl

theorem programs_link (backend : Backend U) :
    (link job backend effect s medium).2.programs =
      (resolution job effect s).programs.map fun linked =>
        (linkOne backend (Program.unitsOf (compiledUnit job backend) job.header
          (resolution job effect s).pool) job.header linked).1 := by
  rw [link_eq]
  dsimp only [linkBy, linkAll]
  rw [units_eq, List.map_map]
  rfl

/-- What is linked does not depend on what becomes of files. -/
theorem link_result_medium (backend : Backend U) :
    (link job backend effect s medium).2 = (link job backend effect s).2 := by
  rw [link_eq, link_eq]
  dsimp only [linkBy, linkAll]
  rw [units_eq, units_eq]

theorem name_ne_of_mem_take {decls : List ProgramDecl} {i : Nat} {decl d : ProgramDecl}
    (hnames : (decls.map (·.name)).Nodup) (hdecl : decls[i]? = some decl) (hd : d ∈ decls.take i) :
    d.name ≠ decl.name := by
  obtain ⟨j, hj, rfl⟩ := List.mem_take_iff_getElem.mp hd
  have hlt : j < i ∧ j < decls.length := by omega
  intro hname
  have hsame : (decls.map (·.name))[j]? = (decls.map (·.name))[i]? := by
    rw [List.getElem?_map, List.getElem?_map, hdecl, List.getElem?_eq_getElem hlt.2]
    exact congrArg some hname
  have hlength : j < (decls.map (·.name)).length := by
    rw [List.length_map]
    exact hlt.2
  exact absurd ((List.getElem?_inj hlength hnames).mp hsame) (Nat.ne_of_lt hlt.1)

/-- Validation treats a program of a batch as it treats the program alone. -/
theorem admitted_only (job : Job) (s : Session) (hnames : (effect.programs.map (·.name)).Nodup)
    {i : Nat} {decl : ProgramDecl} (hdecl : effect.programs[i]? = some decl) :
    ∃ linked, (admitted job effect s)[i]? = some linked ∧
      admitted job (effect.only decl) s = [linked] := by
  let base := (effect.check .empty).table
  let before := (validateAll job.options base (effect.programs.take i)).table
  have hbefore : base.AddsPrograms before := addsPrograms_validateAll _ _ _
  have hfree : before.get? (Program.ofDecl decl).name = none ↔
      base.get? (Program.ofDecl decl).name = none := by
    have hsame := get?_validateAll job.options base fun d hd => name_ne_of_mem_take hnames hdecl hd
    rw [Program.name_ofDecl, ← hsame]
  have hprogram : ((Program.ofDecl decl).validate before job.options).program =
      ((Program.ofDecl decl).validate base job.options).program :=
    (Program.validate_congr hbefore (SymbolTable.AddsPrograms.refl base) hfree).1
  have hempty : ((Program.ofDecl decl).validate before job.options).faults.isEmpty =
      ((Program.ofDecl decl).validate base job.options).faults.isEmpty := by
    rw [Bool.eq_iff_iff, List.isEmpty_iff, List.isEmpty_iff]
    exact (Program.validate_congr hbefore (SymbolTable.AddsPrograms.refl base) hfree).2
  refine ⟨_, ?_, rfl⟩
  rw [getElem?_admitted, hdecl]
  change some (LinkedProgram.mk _ _) = some (LinkedProgram.mk _ _)
  rw [hprogram, hempty]
  rfl

theorem shader_of_vacant {i : Nat} {linked : LinkedProgram}
    (hi : (admitted job effect s)[i]? = some linked) (hok : linked.ok = true) {stage : Stage}
    (hslot : linked.program.slot stage = none) : (linked.program.slots.get stage).shader = none := by
  obtain ⟨decl, size, -, hprogram, -⟩ := program_admitted hi hok
  have hget : linked.program.slots.get stage = (Program.ofDecl decl).slots.get stage := by
    rw [hprogram]
  have hvacant := Program.slot_eq_none.mp hslot
  rw [hget, Program.slots_ofDecl] at hvacant ⊢
  cases hrow : decl.lastRow stage.rowKey with
  | none => rfl
  | some row =>
    rw [hrow] at hvacant
    contradiction

/-- A program that goes on has the shaders it asks for, if no other program's flags came first. -/
theorem shaded_resolution (hplain : job.header.switches.staticBindings = true → effect.PlainNames)
    {i : Nat} {linked : LinkedProgram} (hi : (admitted job effect s)[i]? = some linked)
    (hok : linked.ok = true)
    (hflags : ∀ stage slot id a, slotOf job effect s i stage = some slot → slot.shader = some id →
      (resolution job effect s).pool.get? id = some a →
      a.compileFlags = linked.program.compileFlags) :
    ∃ q, (resolution job effect s).programs[i]? = some ⟨q, true⟩ ∧
      linked.program.Shaded (symbols job effect) job.header (resolution job effect s).pool q := by
  have hready := ready_admitted job effect s
  obtain ⟨start, r, hat, hr, hextends⟩ := getElem?_resolveAll_of_ok job.header .empty hready hi hok
  refine ⟨r.program, hat, hr.shaded (hready linked (List.mem_of_getElem? hi) hok)
    (fun hs => (hplain hs).table (addsPrograms_symbols job effect))
    (fun _ ha => formed_resolution hplain ha) hextends fun stage slot id a hslot => ?_⟩
  refine hflags stage slot id a ?_
  rw [slotOf, resolution, hat]
  exact hslot

/-- Alone a program meets no flags but its own. -/
theorem compileFlags_of_only {decl : ProgramDecl} {linked : LinkedProgram}
    (honly : admitted job (effect.only decl) s = [linked]) {id : Nat} {a : Shader}
    (ha : (resolution job (effect.only decl) s).pool.get? id = some a) :
    a.compileFlags = linked.program.compileFlags := by
  have hready := ready_admitted job (effect.only decl) s
  rcases (pooled_resolveAll job.header .empty hready).members a (List.mem_of_getElem? ha) with
    ha | ⟨other, hmem, -, hreq⟩
  · exact absurd ha List.not_mem_nil
  · rw [honly] at hmem
    rw [← List.mem_singleton.mp hmem]
    exact hreq.compileFlags_eq

/-- A program that goes on comes out of the batch as it comes out alone, up to the ids. -/
theorem renumbers_only (hplain : job.header.switches.staticBindings = true → effect.PlainNames)
    {i : Nat} {decl : ProgramDecl} {linked : LinkedProgram}
    (hi : (admitted job effect s)[i]? = some linked)
    (honly : admitted job (effect.only decl) s = [linked]) (hok : linked.ok = true)
    (hflags : ∀ stage slot id a, slotOf job effect s i stage = some slot → slot.shader = some id →
      (resolution job effect s).pool.get? id = some a →
      a.compileFlags = linked.program.compileFlags) :
    ∃ q q', (resolution job effect s).programs[i]? = some ⟨q, true⟩ ∧
      (resolution job (effect.only decl) s).programs = [⟨q', true⟩] ∧
      q.Renumbers (resolution job effect s).pool (resolution job (effect.only decl) s).pool q' := by
  obtain ⟨q, hq, hshaded⟩ := shaded_resolution hplain hi hok hflags
  have hzero : (admitted job (effect.only decl) s)[0]? = some linked := by
    rw [honly]
    rfl
  obtain ⟨q', hq', hshaded'⟩ := shaded_resolution (fun hs => (hplain hs).only decl) hzero hok
    fun _ _ _ _ _ _ ha => compileFlags_of_only honly ha
  refine ⟨q, q', hq, ?_, ?_⟩
  · have hlength : (resolution job (effect.only decl) s).programs.length = 1 :=
      length_resolution job (effect.only decl) s
    obtain ⟨single, hsingle⟩ := List.length_eq_one_iff.mp hlength
    rw [hsingle] at hq' ⊢
    cases hq'
    rfl
  · have hagrees : (symbols job effect).Agrees (symbols job (effect.only decl)) :=
      SymbolTable.AddsPrograms.agrees (addsPrograms_symbols job effect)
        (addsPrograms_symbols job (effect.only decl))
    exact hshaded.renumbers hshaded' hagrees fun _ hslot => shader_of_vacant hi hok hslot

/-- Linked in a batch of programs with different names, a program has the status that it has alone, and
if it is good, the same artifact. The shaders that the program ends up with have to carry its own
compile flags; with static bindings, names have to be plain. -/
theorem link_only (backend : Backend U) (hnames : (effect.programs.map (·.name)).Nodup)
    (hplain : job.header.switches.staticBindings = true → effect.PlainNames)
    {i : Nat} {decl : ProgramDecl} (hdecl : effect.programs[i]? = some decl)
    (hflags : Passed job effect s i → ∀ stage slot id a,
      slotOf job effect s i stage = some slot → slot.shader = some id →
      (link job backend effect s).2.pool.get? id = some a →
      a.compileFlags = (Program.ofDecl decl).compileFlags) :
    ∃ linked alone, (link job backend effect s).2.programs[i]? = some linked ∧
      (link job backend (effect.only decl) s).2.programs = [alone] ∧
      alone.ok = linked.ok ∧
      (linked.ok = true →
        alone.program.artifact (link job backend (effect.only decl) s).2.pool =
          linked.program.artifact (link job backend effect s).2.pool) := by
  obtain ⟨before, hi, honly⟩ := admitted_only job s hnames hdecl
  rw [programs_link, programs_link, pool_link, pool_link, List.getElem?_map]
  by_cases hok : before.ok = true
  · obtain ⟨decl', size, hdecl', hprogram, -⟩ := program_admitted hi hok
    rw [hdecl] at hdecl'
    cases hdecl'
    have hown : before.program.compileFlags = (Program.ofDecl decl).compileFlags := by rw [hprogram]
    rw [pool_link] at hflags
    obtain ⟨q, q', hq, hq', hrenumbers⟩ := renumbers_only hplain hi honly hok
      (fun stage slot id a hslot hid ha =>
        (hflags ⟨before, hi, hok⟩ stage slot id a hslot hid ha).trans hown.symm)
    have hlinked := hrenumbers.linkWith backend (compiledUnit job backend) job.header
    rw [hq, hq']
    exact ⟨_, _, rfl, rfl, hlinked.ok, fun _ => hlinked.program.artifact_eq⟩
  · -- a program that was given up is the same in both runs, and stays so
    have hat : (resolution job effect s).programs[i]? = some before :=
      getElem?_resolveAll_of_not_ok job.header .empty hi hok
    have halone : (resolution job (effect.only decl) s).programs = [before] := by
      rw [resolution, honly, resolveAll_cons_of_not_ok _ _ hok]
      rfl
    rw [hat, halone]
    simp only [Option.map_some, List.map_cons, List.map_nil, linkOne, if_neg hok]
    exact ⟨before, before, rfl, rfl, rfl, fun h => absurd h hok⟩

/-- Beacon shares its shader with Amber, and Dusk fails next to it. -/
theorem link_only_beacon :
    (lanterns.programs.map (·.name)).Nodup ∧ lanterns.PlainNames ∧
    lanterns.programs[1]? = some (lantern "Beacon" "warm") ∧
    Passed lanternJob lanterns emptySession 1 ∧
    ∃ linked alone, (link lanternJob echo lanterns emptySession).2.programs[1]? = some linked ∧
      (link lanternJob echo (lanterns.only (lantern "Beacon" "warm")) emptySession).2.programs =
        [alone] ∧
      linked.ok = true ∧ alone.ok = true ∧
      alone.program.artifact
          (link lanternJob echo (lanterns.only (lantern "Beacon" "warm")) emptySession).2.pool =
        linked.program.artifact (link lanternJob echo lanterns emptySession).2.pool := by
  have hnames : (lanterns.programs.map (·.name)).Nodup := by decide
  have hplain : lanterns.PlainNames := ⟨by decide, by decide, by decide⟩
  have hpool : ∀ a ∈ (resolution lanternJob lanterns emptySession).pool.shaders,
      a.compileFlags = "" := by decide
  have hstatus : (link lanternJob echo lanterns emptySession).2.programs[1]?.map (·.ok) =
      some true := by decide
  have hbeacon : lanterns.programs[1]? = some (lantern "Beacon" "warm") := rfl
  refine ⟨hnames, hplain, hbeacon, Option.map_eq_some_iff.mp (by decide), ?_⟩
  obtain ⟨linked, alone, hlinked, halone, hok, hartifact⟩ :=
    link_only (s := emptySession) echo hnames (fun _ => hplain) hbeacon fun _ _ _ id a _ _ ha => by
      rw [pool_link] at ha
      exact hpool a (List.mem_of_getElem? ha)
  rw [hlinked] at hstatus
  have hgood : linked.ok = true := Option.some.inj hstatus
  exact ⟨linked, alone, hlinked, halone, hgood, hok.trans hgood, hartifact hgood⟩

end Linker

end EffectLink
