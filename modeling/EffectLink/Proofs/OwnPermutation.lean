import EffectLink.Proofs.ResolvedBatch

namespace EffectLink

namespace Linker

section Stages

variable (job : Job) (effect : Effect) (s : Session)

/-- A program that goes on after validation. -/
def Passed (i : Nat) : Prop := ∃ linked, (admitted job effect s)[i]? = some linked ∧ linked.ok = true

/-- The row that fills a stage of a program. -/
def rowOf (i : Nat) (stage : Stage) : Option ProgramRow :=
  effect.programs[i]?.bind fun decl => decl.lastRow stage.rowKey

/-- A populated stage of a program after the shaders are given out. -/
def slotOf (i : Nat) (stage : Stage) : Option StageSlot :=
  (resolution job effect s).programs[i]?.bind fun linked => linked.program.slot stage

/-- A populated stage of a program that goes on, with its row and its slot in the end. -/
structure Populates (i : Nat) (stage : Stage) (row : ProgramRow) (slot : StageSlot) : Prop where
  passed : Passed job effect s i
  row : rowOf effect i stage = some row
  slot : slotOf job effect s i stage = some slot

end Stages

variable {job : Job} {effect : Effect} {s : Session}

/-- The names of functions are looked up among the functions of the effect. -/
theorem find?_function_of_symbols {n : String} {f : Function}
    (h : (symbols job effect).get? n = some (.function f)) :
    effect.functions.find? (·.name == n) = some f := by
  have hk : (Symbol.function f).kind ≠ .program := fun hk => SymbolKind.noConfusion hk
  apply Effect.find?_function_of_get?
  rw [← effect.get?_check]
  exact ((addsPrograms_symbols job effect).get?_iff hk).mp h

theorem slot_admitted {i : Nat} {linked : LinkedProgram}
    (hi : (admitted job effect s)[i]? = some linked) (hok : linked.ok = true) (stage : Stage) :
    linked.program.slot stage = (rowOf effect i stage).map (Program.stageRow .vacant) := by
  obtain ⟨decl, size, hdecl, hprogram, -⟩ := program_admitted hi hok
  rw [rowOf, hdecl, hprogram]
  exact Program.slot_ofDecl decl stage

/-- What one stage of a program holds in the end, in terms of its row. -/
theorem slotOf_of_row (hplain : job.header.switches.staticBindings = true → effect.PlainNames)
    {i : Nat} {stage : Stage} {row : ProgramRow} (hpassed : Passed job effect s i)
    (hrow : rowOf effect i stage = some row) :
    ∃ f id flags, (symbols job effect).get? row.value = some (.function f) ∧
      slotOf job effect s i stage = some { Program.stageRow .vacant row with
        shaderName := shaderIdentity f.name (job.header.builtIn row.bindings)
        bindings := job.header.leftOver row.bindings
        shader := some id } ∧
      (resolution job effect s).pool.get? id = some
        { stage
          identity := shaderIdentity f.name (job.header.builtIn row.bindings)
          function := f
          compileFlags := flags
          bindings := job.header.builtIn row.bindings } := by
  obtain ⟨linked, hi, hok⟩ := hpassed
  have hready := ready_admitted job effect s
  have hp := hready linked (List.mem_of_getElem? hi) hok
  have hslot : linked.program.slot stage = some (Program.stageRow .vacant row) := by
    rw [slot_admitted hi hok, hrow]
    rfl
  obtain ⟨before, r, hat, hr, hextends⟩ :=
    getElem?_resolveAll_of_ok job.header .empty hready hi hok
  -- the shader was found in the pool of that moment, and is still there at the end
  have hsettled := (hr.settled_all hslot).mono hextends
  obtain ⟨f, id, flags, hf, hafter, hpooled⟩ := hsettled.pooled hp
    (fun hs => (hplain hs).table (addsPrograms_symbols job effect))
    (fun _ ha => formed_resolution hplain ha) hslot
  refine ⟨f, id, flags, hf, ?_, hpooled⟩
  rw [slotOf, resolution, hat]
  exact Program.slot_eq_some.mpr ⟨hafter, rfl⟩

theorem slotOf_of_no_row {i : Nat} {stage : Stage} (hpassed : Passed job effect s i)
    (hrow : rowOf effect i stage = none) : slotOf job effect s i stage = none := by
  obtain ⟨linked, hi, hok⟩ := hpassed
  have hslot : linked.program.slot stage = none := by
    rw [slot_admitted hi hok, hrow]
    rfl
  obtain ⟨before, r, hat, hr, -⟩ :=
    getElem?_resolveAll_of_ok job.header .empty (ready_admitted job effect s) hi hok
  rw [slotOf, resolution, hat]
  exact (Program.slot_congr (hr.untouched stage (Or.inr hslot))).trans hslot

theorem isSome_slotOf (hplain : job.header.switches.staticBindings = true → effect.PlainNames)
    {i : Nat} (hpassed : Passed job effect s i) (stage : Stage) :
    (slotOf job effect s i stage).isSome = (rowOf effect i stage).isSome := by
  cases hrow : rowOf effect i stage with
  | none =>
    rw [slotOf_of_no_row hpassed hrow]
    rfl
  | some row =>
    obtain ⟨f, id, flags, -, hslot, -⟩ := slotOf_of_row hplain hpassed hrow
    rw [hslot]
    rfl

/-- Two stages hold the same shader exactly if they ask for the same key. -/
theorem Populates.shader_eq_iff
    (hplain : job.header.switches.staticBindings = true → effect.PlainNames)
    {i i' : Nat} {stage stage' : Stage} {row row' : ProgramRow} {slot slot' : StageSlot}
    (h : Populates job effect s i stage row slot)
    (h' : Populates job effect s i' stage' row' slot') :
    slot.shader = slot'.shader ↔ stage = stage' ∧ row.value = row'.value ∧
      (job.header.switches.staticBindings = true → row.bindings = row'.bindings) := by
  obtain ⟨f, id, flags, hf, hslot, hpooled⟩ := slotOf_of_row hplain h.passed h.row
  obtain ⟨f', id', flags', hf', hslot', hpooled'⟩ := slotOf_of_row hplain h'.passed h'.row
  rw [h.slot] at hslot
  rw [h'.slot] at hslot'
  cases hslot
  cases hslot'
  have hname : f.name = row.value := SymbolTable.name_of_get? hf
  have hname' : f'.name = row'.value := SymbolTable.name_of_get? hf'
  constructor
  · intro hid
    cases hid
    rw [hpooled] at hpooled'
    injection hpooled' with hshader
    injection hshader with hstage _ hfunction _ hbindings
    refine ⟨hstage, by rw [← hname, ← hname', hfunction], fun hs => ?_⟩
    simpa only [Header.builtIn, if_pos hs] using hbindings
  · rintro ⟨rfl, hvalue, hbindings⟩
    have hbuilt : job.header.builtIn row.bindings = job.header.builtIn row'.bindings := by
      unfold Header.builtIn
      split
      · next hs => exact hbindings hs
      · rfl
    -- the pool has no key twice, so equal keys have equal ids
    have hid : id = id' := by
      refine (distinct_resolution job effect s).id_unique hpooled hpooled' ⟨rfl, ?_⟩
      change shaderIdentity f.name _ = shaderIdentity f'.name _
      rw [hname, hname', hvalue, hbuilt]
    exact congrArg some hid

theorem pool_link {U : Type} {medium : Medium} (backend : Backend U) :
    (link job backend effect s medium).2.pool = (resolution job effect s).pool := by
  rw [link_eq, linkBy]

/-- Once the shaders are given out, every stage that a row fills holds a pooled shader of its own stage
and of the function that the row names. The bindings of the row are kept once: with static bindings in
the shader, otherwise with the stage. Two stages hold the same shader exactly if stage, function and
static bindings agree. A program takes part if its status is good when validation ends, which it is
not if a declaration of the effect is at fault. -/
theorem link_permutations {U : Type} (backend : Backend U)
    (hplain : job.header.switches.staticBindings = true → effect.PlainNames) :
    (∀ i stage, Passed job effect s i →
      (slotOf job effect s i stage).isSome = (rowOf effect i stage).isSome) ∧
    (∀ i stage row slot, Populates job effect s i stage row slot →
      ∃ id shader, slot.shader = some id ∧
        (link job backend effect s).2.pool.get? id = some shader ∧
        shader.stage = stage ∧
        effect.functions.find? (·.name == row.value) = some shader.function ∧
        (job.header.switches.staticBindings = false →
          slot.bindings = row.bindings ∧ shader.bindings = ∅) ∧
        (job.header.switches.staticBindings = true →
          slot.bindings = ∅ ∧ shader.bindings = row.bindings)) ∧
    (∀ i stage row slot i' stage' row' slot', Populates job effect s i stage row slot →
      Populates job effect s i' stage' row' slot' →
      (slot.shader = slot'.shader ↔ stage = stage' ∧ row.value = row'.value ∧
        (job.header.switches.staticBindings = true → row.bindings = row'.bindings))) := by
  refine ⟨fun i stage hpassed => isSome_slotOf hplain hpassed stage, ?_,
    fun _ _ _ _ _ _ _ _ h h' => h.shader_eq_iff hplain h'⟩
  intro i stage row slot h
  obtain ⟨f, id, flags, hf, hslot, hpooled⟩ := slotOf_of_row hplain h.passed h.row
  rw [h.slot] at hslot
  cases hslot
  rw [← pool_link backend] at hpooled
  refine ⟨id, _, rfl, hpooled, rfl, find?_function_of_symbols hf, fun hs => ?_, fun hs => ?_⟩
  · simp only [Header.leftOver, Header.builtIn, hs]
    exact ⟨rfl, rfl⟩
  · simp only [Header.leftOver, Header.builtIn, hs]
    exact ⟨rfl, rfl⟩

def flame : Function :=
  { name := "flame", location := ⟨"lanterns.json", 5⟩, returnType := .builtin .void, parameters := []
    isShader := true, attributes := .none, code := "void main() {}" }

def lanternRow (tint : String) : ProgramRow :=
  ⟨"VertexShader", "flame", .ofList [("tint", tint)], ⟨"lanterns.json", 8⟩⟩

def lantern (name tint : String) : ProgramDecl :=
  { name, location := ⟨"lanterns.json", 6⟩
    rows := [⟨"RenderState", "glow", ∅, ⟨"lanterns.json", 7⟩⟩, lanternRow tint]
    annotation := none }

/-- One function in four programs. The first two bind the same implementation, the last binds one that
is not declared. -/
def lanterns : Effect :=
  { name := "lanterns", file := "lanterns.json", structures := []
    globals := [⟨"tint", ⟨"lanterns.json", 1⟩, .builtin .float, none, true⟩]
    subroutines := [⟨"warm", ⟨"lanterns.json", 2⟩, .implementation⟩,
      ⟨"pale", ⟨"lanterns.json", 3⟩, .implementation⟩]
    renderStates := [⟨"glow", ⟨"lanterns.json", 4⟩⟩]
    functions := [flame]
    programs := [lantern "Amber" "warm", lantern "Beacon" "warm", lantern "Crypt" "pale",
      lantern "Dusk" "blue"] }

def lanternJob : Job :=
  .standard ⟨.glsl, 4, 5, { Switches.none with staticBindings := true }⟩ .standard "out"

def emptySession : Session := ⟨.empty .standard, ⟨[], []⟩, []⟩

/-- A backend whose units are the sources they come from. -/
def echo : Backend String :=
  { name := "echo"
    acquire := .ok ()
    compile := fun _ _ _ source => .ok source
    link := fun _ stages => if stages.isEmpty then .error "nothing to link" else .ok ()
    reflect := fun _ stages => .ok ⟨stages.map (·.2), []⟩
    binary := fun _ stages _ => .ok [UInt32.ofNat stages.length] }

def lanternSlot (tint : String) (id : Nat) : StageSlot :=
  { populated := true, function := "flame", shaderName := "flame(tint = " ++ tint ++ ")"
    bindings := ∅, location := ⟨"lanterns.json", 8⟩, shader := some id, binary := [] }

/-- Amber and Beacon share a shader, Crypt has one of its own. -/
theorem link_permutations_lanterns :
    lanterns.PlainNames ∧ ∃ amber beacon crypt,
    Populates lanternJob lanterns emptySession 0 .vertex (lanternRow "warm") amber ∧
    Populates lanternJob lanterns emptySession 1 .vertex (lanternRow "warm") beacon ∧
    Populates lanternJob lanterns emptySession 2 .vertex (lanternRow "pale") crypt ∧
    (∃ id shader, crypt.shader = some id ∧
      (link lanternJob echo lanterns emptySession).2.pool.get? id = some shader ∧
      shader.bindings = .ofList [("tint", "pale")]) ∧
    amber.shader = beacon.shader ∧ amber.shader ≠ crypt.shader := by
  have hplain : lanterns.PlainNames := ⟨by decide, by decide, by decide⟩
  have hpassed (i : Nat)
      (h : (admitted lanternJob lanterns emptySession)[i]?.map (·.ok) = some true) :
      Passed lanternJob lanterns emptySession i := Option.map_eq_some_iff.mp h
  have hamber : Populates lanternJob lanterns emptySession 0 .vertex (lanternRow "warm")
      (lanternSlot "warm" 0) := ⟨hpassed 0 (by decide), by decide, by decide⟩
  have hbeacon : Populates lanternJob lanterns emptySession 1 .vertex (lanternRow "warm")
      (lanternSlot "warm" 0) := ⟨hpassed 1 (by decide), by decide, by decide⟩
  have hcrypt : Populates lanternJob lanterns emptySession 2 .vertex (lanternRow "pale")
      (lanternSlot "pale" 1) := ⟨hpassed 2 (by decide), by decide, by decide⟩
  obtain ⟨-, hslots, hshared⟩ := link_permutations (s := emptySession) echo fun _ => hplain
  refine ⟨hplain, _, _, _, hamber, hbeacon, hcrypt, ?_, ?_, ?_⟩
  · obtain ⟨id, shader, hid, hget, -, -, -, hstatic⟩ := hslots _ _ _ _ hcrypt
    exact ⟨id, shader, hid, hget, (hstatic rfl).2⟩
  · exact (hshared _ _ _ _ _ _ _ _ hamber hbeacon).mpr ⟨rfl, rfl, fun _ => rfl⟩
  · intro h
    have hbindings := ((hshared _ _ _ _ _ _ _ _ hamber hcrypt).mp h).2.2 rfl
    exact absurd hbindings (by decide)

end Linker

end EffectLink
