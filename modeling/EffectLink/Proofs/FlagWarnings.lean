import EffectLink.Proofs.ConfinedWrites
import Mathlib.Data.List.Pairwise

namespace EffectLink

namespace Program

variable {symbols : SymbolTable} {header : Header} {p : Program} {pool : Pool} {done : List Stage}
  {r : Resolved} {d : Diagnostic}

/-- The shader of a populated stage. -/
def shaderAt (p : Program) (stage : Stage) : Option Nat := (p.slot stage).bind (·.shader)

theorem slot_setSlot_self (p : Program) (stage : Stage) {after : StageSlot}
    (h : after.populated = true) : (p.setSlot stage after).slot stage = some after :=
  slot_eq_some.mpr ⟨slots_setSlot_self p stage after, h⟩

theorem shaderAt_setSlot_self (p : Program) (stage : Stage) {after : StageSlot}
    (h : after.populated = true) : (p.setSlot stage after).shaderAt stage = after.shader := by
  unfold shaderAt
  rw [slot_setSlot_self p stage h]
  rfl

theorem shaderAt_setSlot_of_ne (p : Program) {stage other : Stage} (h : other ≠ stage)
    (after : StageSlot) : (p.setSlot stage after).shaderAt other = p.shaderAt other := by
  unfold shaderAt
  rw [slot_congr (slots_setSlot_of_ne p h after)]

/-- `d` is the warning that the shader of a stage was built with other flags than those of the
program. -/
def Drops (p : Program) (pool : Pool) (stage : Stage) (d : Diagnostic) : Prop :=
  ∃ slot id found, p.slot stage = some slot ∧ slot.shader = some id ∧ pool.get? id = some found ∧
    found.compileFlags ≠ p.compileFlags ∧ d = p.flagWarning stage slot.shaderName slot.location found

/-- Whether there is a warning depends on the name and the flags of the program, on its slot, and on a
pool that has the shader. -/
theorem drops_congr {q : Program} {later : Pool} {stage : Stage} (hname : q.name = p.name)
    (hflags : q.compileFlags = p.compileFlags) (hslot : q.slots.get stage = p.slots.get stage)
    (hpool : pool.Extends later)
    (hheld : ∀ slot, p.slot stage = some slot →
      ∃ id found, slot.shader = some id ∧ pool.get? id = some found) :
    q.Drops later stage d ↔ p.Drops pool stage d := by
  have hwarning (identity : String) (location : Location) (found : Shader) :
      q.flagWarning stage identity location found = p.flagWarning stage identity location found := by
    unfold flagWarning
    rw [hname, hflags]
  have hsame : q.slot stage = p.slot stage := slot_congr hslot
  unfold Drops
  rw [hsame, hflags]
  simp only [hwarning]
  constructor
  · intro h
    obtain ⟨slot, id, found, hat, hid, hfound, hrest⟩ := h
    obtain ⟨id', found', hid', hfound'⟩ := hheld slot hat
    rw [hid] at hid'
    obtain rfl := Option.some.inj hid'
    rw [hpool.get? hfound'] at hfound
    obtain rfl := Option.some.inj hfound
    exact ⟨slot, id, found', hat, hid, hfound', hrest⟩
  · intro h
    obtain ⟨slot, id, found, hat, hid, hfound, hrest⟩ := h
    exact ⟨slot, id, found, hat, hid, hpool.get? hfound, hrest⟩

theorem drops_of_slot {stage : Stage} {slot : StageSlot} {id : Nat} {found : Shader}
    (hslot : p.slot stage = some slot) (hid : slot.shader = some id) (hfound : pool.get? id = some found) :
    p.Drops pool stage d ↔ found.compileFlags ≠ p.compileFlags ∧
      d = p.flagWarning stage slot.shaderName slot.location found := by
  constructor
  · intro h
    obtain ⟨slot', id', found', hslot', hid', hfound', hrest⟩ := h
    rw [hslot] at hslot'
    obtain rfl := Option.some.inj hslot'
    rw [hid] at hid'
    obtain rfl := Option.some.inj hid'
    rw [hfound] at hfound'
    obtain rfl := Option.some.inj hfound'
    exact hrest
  · intro h
    exact ⟨slot, id, found, hslot, hid, hfound, h⟩

theorem drops_setSlot_self {stage : Stage} {after : StageSlot} {id : Nat} {found : Shader}
    (h : after.populated = true) (hid : after.shader = some id) (hfound : pool.get? id = some found) :
    (p.setSlot stage after).Drops pool stage d ↔ found.compileFlags ≠ p.compileFlags ∧
      d = p.flagWarning stage after.shaderName after.location found :=
  drops_of_slot (slot_setSlot_self p stage h) hid hfound

/-- A stage is warned if the shader that it gets has other flags. A shader that is new has the flags it
was asked for with. -/
theorem mem_flagWarnings {slot : StageSlot} {request found : Shader}
    (hflags : request.compileFlags = p.compileFlags)
    (hfound : (pool.intern request).1.get? (pool.intern request).2 = some found) :
    d ∈ p.flagWarnings pool slot request ↔
      found.compileFlags ≠ p.compileFlags ∧
        d = p.flagWarning request.stage request.identity slot.location found := by
  unfold flagWarnings Pool.find?
  unfold Pool.intern at hfound
  cases hlookup : pool.lookup request.stage request.identity with
  | some id =>
    rw [hlookup] at hfound
    dsimp only at hfound
    rw [Option.bind_some, hfound]
    dsimp only
    split
    · next heq => simp [heq]
    · next hne => simp [hne]
  | none =>
    rw [hlookup] at hfound
    have hnew : found = request := by
      have hlast : (pool.shaders ++ [request])[pool.shaders.length]? = some request :=
        List.getElem?_concat_length
      exact Option.some.inj (hfound.symm.trans hlast)
    rw [hnew, hflags]
    simp

/-- What has been done about flags when the stages in `done` have their shaders: a shader that was added
has the flags of the program, and what is reported is that some other shader has not. -/
structure Flagged (symbols : SymbolTable) (header : Header) (p : Program) (pool : Pool)
    (done : List Stage) (r : Resolved) : Prop extends p.Resolving symbols header pool done r where
  added : ∀ id found, r.pool.get? id = some found → pool.size ≤ id →
    found.compileFlags = p.compileFlags ∧ ∃ stage ∈ done, r.program.shaderAt stage = some id
  reports : ∀ d, d ∈ r.diagnostics ↔ ∃ stage ∈ done, r.program.Drops r.pool stage d

theorem flagged_nil (symbols : SymbolTable) (header : Header) (p : Program) (pool : Pool) :
    p.Flagged symbols header pool [] ⟨p, pool, [], true⟩ where
  toResolving := resolving_nil symbols header p pool
  added := by
    intro id found hget hle
    have hlt : id < pool.size := (List.getElem?_eq_some_iff.mp hget).1
    omega
  reports := by simp

/-- A stage without a shader has nothing to report. -/
theorem Flagged.skip {stage : Stage} (h : p.Flagged symbols header pool done r)
    (hslot : r.program.slot stage = none)
    (hnext : p.Resolving symbols header pool (stage :: done) r) :
    p.Flagged symbols header pool (stage :: done) r := by
  refine ⟨hnext, ?_, ?_⟩
  · intro id found hget hle
    obtain ⟨hflags, s, hs, hat⟩ := h.added id found hget hle
    exact ⟨hflags, s, List.mem_cons_of_mem _ hs, hat⟩
  · intro d
    have hno : ¬r.program.Drops r.pool stage d := by
      intro hdrops
      obtain ⟨slot, -, -, hat, -⟩ := hdrops
      rw [hslot] at hat
      contradiction
    rw [h.reports, List.exists_mem_cons_iff, or_iff_right hno]

/-- A stage that gets a shader reports its flags if they are not those of the program. -/
theorem Flagged.fill {stage : Stage} {slot : StageSlot} {f : Function}
    (h : p.Flagged symbols header pool done r) (hstage : stage ∉ done)
    (hslot : r.program.slot stage = some slot) (hf : stageFunction symbols stage slot = .ok f)
    (hnext : p.Resolving symbols header pool (stage :: done) (resolveStage symbols header r stage)) :
    p.Flagged symbols header pool (stage :: done) (resolveStage symbols header r stage) := by
  rw [resolveStage_of_some hslot hf] at hnext ⊢
  dsimp only at hnext ⊢
  have hflags : r.program.compileFlags = p.compileFlags := by rw [h.frame]
  have hpopulated : slot.populated = true := (slot_eq_some.mp hslot).2
  have hne {s : Stage} (hs : s ∈ done) : s ≠ stage := by
    intro heq
    exact hstage (heq ▸ hs)
  refine ⟨hnext, ?_, ?_⟩
  · intro id a hget hle
    rcases Pool.of_get?_intern hget with hold | ⟨hnew, hid⟩
    · obtain ⟨hcarries, s, hs, hat⟩ := h.added id a hold hle
      refine ⟨hcarries, s, List.mem_cons_of_mem _ hs, ?_⟩
      exact (shaderAt_setSlot_of_ne _ (hne hs) _).trans hat
    · refine ⟨?_, stage, List.mem_cons_self, ?_⟩
      · rw [hnew]
        exact hflags
      · rw [hid]
        exact shaderAt_setSlot_self _ _ hpopulated
  · intro d
    obtain ⟨found, hfound, -⟩ := r.pool.get?_intern (r.program.requested header stage slot f)
    rw [List.mem_append, h.reports, List.exists_mem_cons_iff, or_comm]
    apply or_congr
    · dsimp only
      rw [drops_setSlot_self ?_ ?_ hfound]
      · exact mem_flagWarnings rfl hfound
      · exact hpopulated
      · rfl
    · apply exists_congr
      intro s
      apply and_congr_right
      intro hs
      -- the stages before have kept their slots, and the shaders in them are still there
      symm
      refine drops_congr ?_ ?_ (slots_setSlot_of_ne _ (hne hs) _) (r.pool.extends_intern _) ?_
      · rfl
      · rfl
      · intro slot' hslot'
        exact h.shader_of_mem hs hslot'

/-- One more stage gets its shader. -/
theorem Flagged.step {stage : Stage} (h : p.Flagged symbols header pool done r)
    (hp : p.Resolvable symbols) (hstage : stage ∉ done) :
    p.Flagged symbols header pool (stage :: done) (resolveStage symbols header r stage) := by
  have hnext := h.toResolving.step hp hstage
  have hslots : r.program.slot stage = p.slot stage :=
    slot_congr (h.untouched stage (Or.inl hstage))
  cases hslot : p.slot stage with
  | none =>
    have hnone := hslots.trans hslot
    rw [resolveStage_of_none hnone] at hnext ⊢
    exact h.skip hnone hnext
  | some slot =>
    obtain ⟨f, hf, hshader⟩ := hp.functions stage slot hslot
    exact h.fill hstage (hslots.trans hslot) (stageFunction_eq_ok.mpr ⟨hf, hshader⟩) hnext

theorem flagged_resolve (header : Header) (pool : Pool) (hp : p.Resolvable symbols) :
    p.Flagged symbols header pool Stage.all.reverse (p.resolve symbols header pool) :=
  Stage.foldl_all (flagged_nil symbols header p pool) fun _ _ _ hstage h => h.step hp hstage

/-- A program that has its shaders has them in the pool. -/
theorem Held.lt_size (h : p.Held pool) {stage : Stage} {id : Nat} (hid : p.shaderAt stage = some id) :
    id < pool.size := by
  obtain ⟨slot, hslot, hshader⟩ := Option.bind_eq_some_iff.mp hid
  obtain ⟨id', hid', hlt⟩ := h stage slot hslot
  rw [hshader] at hid'
  rw [Option.some.inj hid']
  exact hlt

theorem shaderAt_addBinary (binary : Stage → Except String (List UInt32)) (r : BackendLinked)
    (stage s : Stage) :
    (addBinary binary r stage).program.shaderAt s = r.program.shaderAt s := by
  unfold addBinary
  cases hslot : r.program.slot stage with
  | none => rfl
  | some slot =>
    dsimp only
    cases binary stage with
    | error log => rfl
    | ok words =>
      by_cases heq : s = stage
      · subst heq
        have hbefore : r.program.shaderAt s = slot.shader := by
          unfold shaderAt
          rw [hslot]
          rfl
        rw [hbefore]
        exact shaderAt_setSlot_self r.program s (slot_eq_some.mp hslot).2
      · exact shaderAt_setSlot_of_ne r.program heq _

/-- The backend gives a program binaries and live data, and leaves its shaders. -/
theorem shaderAt_linkWith {U : Type} (p : Program) (backend : Backend U) (units : List (Option U))
    (header : Header) (stage : Stage) :
    (p.linkWith backend units header).program.shaderAt stage = p.shaderAt stage := by
  have hbinaries (binary : Stage → Except String (List UInt32)) (stages : List Stage)
      (r : BackendLinked) :
      (stages.foldl (addBinary binary) r).program.shaderAt stage = r.program.shaderAt stage := by
    induction stages generalizing r with
    | nil => rfl
    | cons first stages ih =>
      rw [List.foldl_cons, ih]
      exact shaderAt_addBinary binary r first stage
  rcases p.linkWith_cases backend units header with ⟨-, binaries, hr⟩ | ⟨-, warnings, -, hr⟩
  · rw [hr]
    rcases p.linkAndReflect_cases backend units binaries with
      ⟨faults, calls, -, hr⟩ | ⟨code, message, log, calls, -, hr⟩ | ⟨found, live, calls, -, -, -, hr⟩
    · rw [hr]
    · rw [hr]
    · rw [hr]
      dsimp only
      split
      · exact hbinaries _ _ _
      · rfl
  · rw [hr]

end Program

namespace Linker

section Batch

variable {symbols : SymbolTable} {programs : List LinkedProgram} (header : Header) (pool : Pool)

/-- What is reported is that some program has a shader with other flags than its own. -/
theorem mem_diagnostics_resolveAll (h : Ready symbols programs) {d : Diagnostic} :
    d ∈ (resolveAll symbols header pool programs).diagnostics ↔
      ∃ linked ∈ (resolveAll symbols header pool programs).programs, linked.ok = true ∧
        ∃ stage, linked.program.Drops (resolveAll symbols header pool programs).pool stage d := by
  induction programs generalizing pool with
  | nil => simp [resolveAll]
  | cons linked programs ih =>
    by_cases hok : linked.ok = true
    · have hr := Program.flagged_resolve header pool (h linked List.mem_cons_self hok)
      have hmore := (pooled_resolveAll header (linked.program.resolve symbols header pool).pool h.tail).grows
      rw [resolveAll_cons_of_ok header pool hok]
      dsimp only
      rw [List.mem_append, hr.reports, ih _ h.tail, List.exists_mem_cons_iff]
      apply or_congr_left
      rw [and_iff_right hr.ok]
      apply exists_congr
      intro stage
      have hstage : stage ∈ Stage.all.reverse := List.mem_reverse.mpr stage.mem_all
      rw [and_iff_right hstage]
      -- what the program holds is still there when all have their shaders
      refine (Program.drops_congr rfl rfl rfl hmore ?_).symm
      intro slot hslot
      exact hr.shader_of_mem hstage hslot
    · rw [resolveAll_cons_of_not_ok header pool hok]
      dsimp only
      rw [ih _ h.tail, List.exists_mem_cons_iff]
      simp [hok]

/-- The first program that has a shader gave it its flags. -/
theorem exists_first_holder (h : Ready symbols programs) {id : Nat} {found : Shader}
    (hget : (resolveAll symbols header pool programs).pool.get? id = some found)
    (hnew : pool.size ≤ id) :
    ∃ (j : Nat) (linked : LinkedProgram),
      (resolveAll symbols header pool programs).programs[j]? = some linked ∧
      linked.ok = true ∧ linked.program.compileFlags = found.compileFlags ∧
      (∃ stage, linked.program.shaderAt stage = some id) ∧
      ∀ k < j, ∀ earlier : LinkedProgram,
        (resolveAll symbols header pool programs).programs[k]? = some earlier → earlier.ok = true →
        ∀ stage, earlier.program.shaderAt stage ≠ some id := by
  induction programs generalizing pool with
  | nil =>
    have hlt : id < pool.size := (List.getElem?_eq_some_iff.mp hget).1
    omega
  | cons linked programs ih =>
    by_cases hok : linked.ok = true
    · have hr := Program.flagged_resolve header pool (h linked List.mem_cons_self hok)
      have hmore := (pooled_resolveAll header (linked.program.resolve symbols header pool).pool h.tail).grows
      rw [resolveAll_cons_of_ok header pool hok] at hget ⊢
      dsimp only at hget ⊢
      by_cases hlt : id < (linked.program.resolve symbols header pool).pool.size
      · -- this program has added it
        have hthen : (linked.program.resolve symbols header pool).pool.get? id = some found := by
          have heq := hmore.get? (List.getElem?_eq_getElem hlt)
          rw [hget] at heq
          rw [Option.some.inj heq]
          exact List.getElem?_eq_getElem hlt
        obtain ⟨hflags, stage, -, hholds⟩ := hr.added id found hthen hnew
        refine ⟨0, _, rfl, hr.ok, ?_, ⟨stage, hholds⟩, ?_⟩
        · rw [hflags, hr.frame]
        · intro k hk
          omega
      · -- the shaders of this program all come before it
        obtain ⟨j, first, hj, hfirst, hflags, hholds, hearlier⟩ :=
          ih _ h.tail hget (Nat.le_of_not_lt hlt)
        refine ⟨j + 1, first, hj, hfirst, hflags, hholds, ?_⟩
        intro k hk earlier hat hgood stage
        cases k with
        | zero =>
          obtain rfl := Option.some.inj hat
          intro hid
          exact hlt (hr.held.lt_size hid)
        | succ k => exact hearlier k (by omega) earlier hat hgood stage
    · rw [resolveAll_cons_of_not_ok header pool hok] at hget ⊢
      dsimp only at hget ⊢
      obtain ⟨j, first, hj, hfirst, hflags, hholds, hearlier⟩ := ih _ h.tail hget hnew
      refine ⟨j + 1, first, hj, hfirst, hflags, hholds, ?_⟩
      intro k hk earlier hat hgood stage
      cases k with
      | zero =>
        obtain rfl := Option.some.inj hat
        exact absurd hgood hok
      | succ k => exact hearlier k (by omega) earlier hat hgood stage

end Batch

end Linker

namespace Queue

variable {q later : Queue} {d : Diagnostic} {ds : List Diagnostic} {sort : Diagnostic → Prop}

theorem kept_subset_add (q : Queue) (d : Diagnostic) : q.kept ⊆ (q.add d).kept := by
  intro a ha
  rw [kept_add]
  split
  · exact ha
  · exact List.mem_append_left _ ha

theorem kept_subset_addAll (q : Queue) (ds : List Diagnostic) : q.kept ⊆ (q.addAll ds).kept := by
  induction ds generalizing q with
  | nil => exact List.Subset.refl _
  | cons d ds ih => exact List.Subset.trans (kept_subset_add q d) (ih (q.add d))

/-- A queue keeps what it keeps, whatever it receives. -/
theorem Receives.kept_subset (h : q.Receives sort later) : q.kept ⊆ later.kept := by
  induction h with
  | refl => exact List.Subset.refl _
  | add _ _ ih => exact List.Subset.trans ih (kept_subset_add _ _)
  | merge _ _ ih _ => exact List.Subset.trans ih (kept_subset_addAll _ _)

/-- What is no error is kept, unless it is kept already. -/
theorem Tallied.mem_kept_add (h : q.Tallied) (hd : d.isError = false) : d ∈ (q.add d).kept := by
  rw [kept_add]
  split
  · next hrefuses =>
    rcases refuses_iff.mp hrefuses with hseen | ⟨herror, -⟩
    · obtain ⟨hdedup, hmem⟩ := seen_iff.mp hseen
      exact (h.remembered hdedup d).mp hmem
    · rw [hd] at herror
      contradiction
  · exact List.mem_append_right _ List.mem_cons_self

theorem Tallied.mem_kept_addAll (h : q.Tallied) (hmem : d ∈ ds) (hd : d.isError = false) :
    d ∈ (q.addAll ds).kept := by
  induction ds generalizing q with
  | nil => exact absurd hmem List.not_mem_nil
  | cons first ds ih =>
    rcases List.mem_cons.mp hmem with heq | hmem
    · subst heq
      exact kept_subset_addAll (q.add d) ds (h.mem_kept_add hd)
    · exact ih (h.add first) hmem

end Queue

/-- Texts that begin with the labels of different stages are different. -/
theorem Stage.label_append_injective {s t : Stage} {x y : String} (h : s.label ++ x = t.label ++ y) :
    s = t := by
  have hhead : s.label.toList.head? = t.label.toList.head? := by
    have hlist := congrArg (fun text : String => text.toList.head?) h
    simp only [String.toList_append] at hlist
    rw [List.head?_append_of_ne_nil _ (by cases s <;> decide),
      List.head?_append_of_ne_nil _ (by cases t <;> decide)] at hlist
    exact hlist
  revert hhead
  cases s <;> cases t <;> decide

namespace Linker

variable {U : Type} {job : Job} {backend : Backend U} {effect : Effect} {s : Session}

/-- The flags that a program asks for. -/
def flagsOf (effect : Effect) (i : Nat) : String :=
  ((effect.programs[i]?.bind fun decl => decl.lastRow "CompileFlags").map (·.value)).getD ""

/-- A warning that the flags of a program do not count for one of its stages. -/
def WarnsAbout (name : String) (stage : Stage) (d : Diagnostic) : Prop :=
  d.code = .conflictingFlags ∧ d.context = some s!"program '{name}'" ∧
    ∃ rest : String, d.message = s!"{stage.label} shader '{rest}"

/-- A program that goes on after validation has a shader at one of its stages in the end. -/
structure Holds (job : Job) (backend : Backend U) (effect : Effect) (s : Session) (i : Nat)
    (stage : Stage) (id : Nat) : Prop where
  passed : Passed job effect s i
  shader : ∃ linked, (link job backend effect s).2.programs[i]? = some linked ∧
    linked.program.shaderAt stage = some id

theorem warnsAbout_flagWarning (p : Program) (stage : Stage) (identity : String) (location : Location)
    (pooled : Shader) : WarnsAbout p.name stage (p.flagWarning stage identity location pooled) := by
  have happend (a b c e : String) : a ++ b ++ c ++ e = a ++ (b ++ (c ++ e)) := by
    rw [String.append_assoc, String.append_assoc]
  exact ⟨rfl, rfl, _, happend (stage.label ++ " shader '") identity
    "' was already built with compile flags " _⟩

/-- A text that names a program and a stage is about no other program and stage. -/
theorem WarnsAbout.unique {name other : String} {stage stage' : Stage} {d : Diagnostic}
    (h : WarnsAbout name stage d) (h' : WarnsAbout other stage' d) : name = other ∧ stage = stage' := by
  obtain ⟨-, hcontext, rest, hmessage⟩ := h
  obtain ⟨-, hcontext', rest', hmessage'⟩ := h'
  rw [hcontext] at hcontext'
  rw [hmessage] at hmessage'
  refine ⟨Diagnostic.programContext_injective (Option.some.inj hcontext'), ?_⟩
  apply Stage.label_append_injective (x := " shader '" ++ rest) (y := " shader '" ++ rest')
  rw [← String.append_assoc, ← String.append_assoc]
  exact hmessage'

theorem exists_decl_resolution {i : Nat} {linked : LinkedProgram}
    (hi : (resolution job effect s).programs[i]? = some linked) (hok : linked.ok = true) :
    ∃ decl, effect.programs[i]? = some decl := by
  obtain ⟨before, -, -, hbefore, hgood, -⟩ := getElem?_resolution hi hok
  obtain ⟨decl, -, hdecl, -⟩ := program_admitted hbefore hgood
  exact ⟨decl, hdecl⟩

/-- A program that goes on has the name and the flags of its declaration. -/
theorem program_resolution {i : Nat} {decl : ProgramDecl} {linked : LinkedProgram}
    (hdecl : effect.programs[i]? = some decl)
    (hi : (resolution job effect s).programs[i]? = some linked) (hok : linked.ok = true) :
    linked.program.name = decl.name ∧ linked.program.compileFlags = flagsOf effect i := by
  obtain ⟨before, start, r, hbefore, hgood, hprogram, hr, -⟩ := getElem?_resolution hi hok
  obtain ⟨decl', size, hdecl', hdeclared, -⟩ := program_admitted hbefore hgood
  rw [hdecl] at hdecl'
  obtain rfl := Option.some.inj hdecl'
  rw [hprogram, hr.frame, hdeclared, flagsOf, hdecl]
  exact ⟨Program.name_ofDecl decl, Program.compileFlags_ofDecl decl⟩

/-- Every stage that a row fills has a shader of the pool and the location of the row. -/
theorem exists_slot_resolution {i : Nat} {stage : Stage} {row : ProgramRow}
    (hpassed : Passed job effect s i) (hrow : rowOf effect i stage = some row) :
    ∃ (linked : LinkedProgram) (slot : StageSlot) (id : Nat) (shader : Shader),
      (resolution job effect s).programs[i]? = some linked ∧ linked.ok = true ∧
      linked.program.slot stage = some slot ∧ slot.location = row.location ∧
      slot.shader = some id ∧ (resolution job effect s).pool.get? id = some shader := by
  obtain ⟨before, hi, hok⟩ := hpassed
  have hslot : before.program.slot stage = some (Program.stageRow .vacant row) := by
    rw [slot_admitted hi hok, hrow]
    rfl
  obtain ⟨start, r, hat, hr, hextends⟩ :=
    getElem?_resolveAll_of_ok job.header .empty (ready_admitted job effect s) hi hok
  obtain ⟨f, id, shader, -, hafter, hget, -⟩ := hr.settled_all hslot
  refine ⟨⟨r.program, true⟩, r.program.slots.get stage, id, shader, hat, rfl, ?_, ?_, ?_,
    hextends.get? hget⟩
  · apply Program.slot_eq_some.mpr
    refine ⟨rfl, ?_⟩
    rw [hafter]
    rfl
  · rw [hafter]
    rfl
  · rw [hafter]

theorem passed_iff_resolution {i : Nat} :
    Passed job effect s i ↔
      ∃ linked, (resolution job effect s).programs[i]? = some linked ∧ linked.ok = true := by
  have hstatus := congrArg (fun statuses : List Bool => statuses[i]?) (statuses_resolution job effect s)
  simp only [List.getElem?_map] at hstatus
  unfold Passed
  have hview (programs : List LinkedProgram) :
      (∃ linked, programs[i]? = some linked ∧ linked.ok = true) ↔
        programs[i]?.map (·.ok) = some true := by
    rw [Option.map_eq_some_iff]
  rw [hview, hview, hstatus]

/-- The shaders that programs have in the end are those that they were given. -/
theorem holds_iff {i : Nat} {stage : Stage} {id : Nat} :
    Holds job backend effect s i stage id ↔
      ∃ linked, (resolution job effect s).programs[i]? = some linked ∧ linked.ok = true ∧
        linked.program.shaderAt stage = some id := by
  have hshader (linked : LinkedProgram) (units : List (Option U)) :
      (linkOne backend units job.header linked).1.program.shaderAt stage =
        linked.program.shaderAt stage := by
    unfold linkOne
    split
    · exact linked.program.shaderAt_linkWith backend units job.header stage
    · rfl
  constructor
  · intro h
    obtain ⟨linked, hi, hok⟩ := passed_iff_resolution.mp h.passed
    obtain ⟨final, hfinal, hid⟩ := h.shader
    rw [programs_link, List.getElem?_map, hi, Option.map_some] at hfinal
    rw [← Option.some.inj hfinal, hshader] at hid
    exact ⟨linked, hi, hok, hid⟩
  · intro h
    obtain ⟨linked, hi, hok, hid⟩ := h
    have hfinal : (link job backend effect s).2.programs[i]? =
        some (linkOne backend (Program.unitsOf (compiledUnit job backend) job.header
          (resolution job effect s).pool) job.header linked).1 := by
      rw [programs_link, List.getElem?_map, hi]
      rfl
    exact ⟨passed_iff_resolution.mpr ⟨linked, hi, hok⟩, _, hfinal, (hshader _ _).trans hid⟩

/-- Two programs that go on and have one name are one program. -/
theorem eq_of_name_eq {a b : LinkedProgram} (ha : a ∈ (resolution job effect s).programs)
    (hb : b ∈ (resolution job effect s).programs) (hgood : a.ok = true) (hgood' : b.ok = true)
    (hname : a.program.name = b.program.name) : a = b := by
  by_contra hne
  have hsymm : Std.Symm fun a b : LinkedProgram =>
      a.ok = true → b.ok = true → a.program.name ≠ b.program.name :=
    ⟨fun _ _ h hok hok' heq => h hok' hok heq.symm⟩
  exact (pairwise_names_resolution job effect s).forall ha hb hne hgood hgood' hname

theorem reported_receives (job : Job) (backend : Backend U) (effect : Effect) (s : Session) :
    (reported job effect s).queue.Receives (fun d => d.code ≠ .conflictingFlags)
      (link job backend effect s).1.queue := by
  have hcompiled : (reported job effect s).queue.Receives (fun d => d.code ≠ .conflictingFlags)
      (units job backend (resolution job effect s).pool (reported job effect s)).1.queue := by
    refine (compiling_units job backend _ _).mono ?_
    intro d hd hcode
    rcases hd with hd | hd
    · rw [hd] at hcode
      contradiction
    · rw [hd] at hcode
      contradiction
  rw [link_eq]
  refine hcompiled.trans ((linking_linkAll job backend _ _ _).mono ?_)
  intro d hlinking hcode
  rw [hcode] at hlinking
  contradiction

/-- No warning about flags is lost. -/
theorem mem_kept_link (backend : Backend U) (hs : s.queue.Tallied) {d : Diagnostic}
    (hd : d ∈ (resolution job effect s).diagnostics) :
    d ∈ (link job backend effect s).1.queue.kept := by
  have hwarning := (warnings_resolveAll job.header .empty (ready_admitted job effect s) d hd).2
  apply (reported_receives job backend effect s).kept_subset
  exact ((hs.addAll _).addAll _).mem_kept_addAll hd hwarning

/-- There are no other warnings about flags than those that were there. -/
theorem of_mem_kept_link {d : Diagnostic} (hd : d ∈ (link job backend effect s).1.queue.kept)
    (hcode : d.code = .conflictingFlags) :
    d ∈ s.queue.kept ∨ d ∈ (resolution job effect s).diagnostics := by
  have hchecking {ds : List Diagnostic} (hflaws : Flaws ds) : d ∉ ds := by
    intro hmem
    have hcheck := (hflaws d hmem).2
    rw [hcode] at hcheck
    contradiction
  have hreported := ((reported_receives job backend effect s).mem_kept hd).resolve_right fun h => h hcode
  rcases Queue.mem_kept_addAll hreported with hvalidated | hresolved
  · left
    have hdeclared := (Queue.mem_kept_addAll hvalidated).resolve_right
      (hchecking (flaws_validateAll _ _ _))
    exact (Queue.mem_kept_addAll hdeclared).resolve_right (hchecking (effect.flaws_check _))
  · right
    exact hresolved

/-- A stage that a row fills has a shader with the flags of its program, or the queue keeps a warning. -/
theorem flags_or_warning (backend : Backend U) (hs : s.queue.Tallied) {i : Nat} {decl : ProgramDecl}
    {stage : Stage} {row : ProgramRow} (hdecl : effect.programs[i]? = some decl)
    (hpassed : Passed job effect s i) (hrow : rowOf effect i stage = some row) :
    ∃ id shader, Holds job backend effect s i stage id ∧
      (resolution job effect s).pool.get? id = some shader ∧
      (shader.compileFlags = flagsOf effect i ∨
        ∃ d ∈ (link job backend effect s).1.queue.kept, WarnsAbout decl.name stage d ∧
          d.severity = .warning ∧ d.location = some row.location) := by
  obtain ⟨linked, slot, id, shader, hi, hok, hslot, hlocation, hid, hget⟩ :=
    exists_slot_resolution hpassed hrow
  obtain ⟨hname, hflags⟩ := program_resolution hdecl hi hok
  have hat : linked.program.shaderAt stage = some id := by
    unfold Program.shaderAt
    rw [hslot]
    exact hid
  refine ⟨id, shader, holds_iff.mpr ⟨linked, hi, hok, hat⟩, hget, ?_⟩
  by_cases hsame : shader.compileFlags = flagsOf effect i
  · left
    exact hsame
  · right
    have hdrops : linked.program.Drops (resolution job effect s).pool stage
        (linked.program.flagWarning stage slot.shaderName slot.location shader) := by
      refine ⟨slot, id, shader, hslot, hid, hget, ?_, rfl⟩
      rw [hflags]
      exact hsame
    have hreported := (mem_diagnostics_resolveAll job.header .empty (ready_admitted job effect s)).mpr
      ⟨linked, List.mem_of_getElem? hi, hok, stage, hdrops⟩
    -- a queue refuses a warning only if it keeps it already
    refine ⟨_, mem_kept_link backend hs hreported, ?_, rfl, ?_⟩
    · rw [← hname]
      exact warnsAbout_flagWarning _ _ _ _ _
    · rw [← hlocation]
      rfl

/-- A warning that a run reports is about a stage whose shader has other flags than the program. -/
theorem flags_ne_of_warning {i : Nat} {decl : ProgramDecl} {stage : Stage} {id : Nat}
    {shader : Shader} {d : Diagnostic} (hdecl : effect.programs[i]? = some decl)
    (hholds : Holds job backend effect s i stage id)
    (hget : (resolution job effect s).pool.get? id = some shader)
    (hd : d ∈ (resolution job effect s).diagnostics) (hwarns : WarnsAbout decl.name stage d) :
    shader.compileFlags ≠ flagsOf effect i := by
  obtain ⟨linked, hi, hok, hat⟩ := holds_iff.mp hholds
  obtain ⟨hname, hflags⟩ := program_resolution hdecl hi hok
  obtain ⟨other, hother, hgood, stage', hdrops⟩ :=
    (mem_diagnostics_resolveAll job.header .empty (ready_admitted job effect s)).mp hd
  have habout : WarnsAbout other.program.name stage' d := by
    obtain ⟨slot, id', found, -, -, -, -, hwarning⟩ := hdrops
    rw [hwarning]
    exact warnsAbout_flagWarning _ _ _ _ _
  -- the warning is about the program and the stage that it names
  obtain ⟨hnames, hstages⟩ := hwarns.unique habout
  have hlinked : linked = other :=
    eq_of_name_eq (List.mem_of_getElem? hi) hother hok hgood (hname.trans hnames)
  subst hlinked
  subst hstages
  obtain ⟨slot, hslot, hid⟩ := Option.bind_eq_some_iff.mp hat
  rw [← hflags]
  exact ((Program.drops_of_slot hslot hid hget).mp hdrops).1

/-- A shader that a program has was given its flags by that program or one before it. -/
theorem flags_of_first_holder {i : Nat} {stage : Stage} {id : Nat} {shader : Shader}
    (hholds : Holds job backend effect s i stage id)
    (hget : (resolution job effect s).pool.get? id = some shader) :
    ∃ j ≤ i, (∃ stage', Holds job backend effect s j stage' id) ∧
      shader.compileFlags = flagsOf effect j ∧
      ∀ k < j, ∀ stage', ¬Holds job backend effect s k stage' id := by
  obtain ⟨j, first, hj, hgood, hflags, ⟨stage', hat⟩, hearlier⟩ :=
    exists_first_holder job.header .empty (ready_admitted job effect s) hget (Nat.zero_le _)
  obtain ⟨decl, hdecl⟩ := exists_decl_resolution hj hgood
  have hnone : ∀ k < j, ∀ stage', ¬Holds job backend effect s k stage' id := by
    intro k hk stage' hkholds
    obtain ⟨earlier, hk', hok, hid⟩ := holds_iff.mp hkholds
    exact hearlier k hk earlier hk' hok stage' hid
  refine ⟨j, ?_, ⟨stage', holds_iff.mpr ⟨first, hj, hgood, hat⟩⟩, ?_, hnone⟩
  · by_contra hlt
    exact hnone i (Nat.lt_of_not_le hlt) stage hholds
  · rw [← hflags]
    exact (program_resolution hdecl hj hgood).2

/-- Compile flags are never dropped in silence. Where a stage of a program that goes on has a shader with
other flags than those of the program, a warning is kept at the row of the stage, in the context of the
program, that names the stage. If the queue was empty, no such warning is kept for a stage whose shader has
the flags of the program. The flags of a shader are those of the first program that has it. -/
theorem link_warns_of_flags (job : Job) (backend : Backend U) (effect : Effect) (s : Session)
    (hs : s.queue.Arises) :
    let kept := (link job backend effect s).1.queue.kept
    let pool := (link job backend effect s).2.pool
    (∀ i decl stage row, effect.programs[i]? = some decl → Passed job effect s i →
      rowOf effect i stage = some row →
      ∃ id shader, Holds job backend effect s i stage id ∧ pool.get? id = some shader ∧
        (shader.compileFlags = flagsOf effect i ∨
          ∃ d ∈ kept, WarnsAbout decl.name stage d ∧ d.severity = .warning ∧
            d.location = some row.location)) ∧
    (s.queue.kept = [] → ∀ i decl stage id shader, effect.programs[i]? = some decl →
      Holds job backend effect s i stage id → pool.get? id = some shader →
      shader.compileFlags = flagsOf effect i → ∀ d ∈ kept, ¬WarnsAbout decl.name stage d) ∧
    (∀ i stage id shader, Holds job backend effect s i stage id → pool.get? id = some shader →
      ∃ j ≤ i, (∃ stage', Holds job backend effect s j stage' id) ∧
        shader.compileFlags = flagsOf effect j ∧
        ∀ k < j, ∀ stage', ¬Holds job backend effect s k stage' id) := by
  intro kept pool
  have hpool : pool = (resolution job effect s).pool := pool_link backend
  rw [hpool]
  refine ⟨?_, ?_, ?_⟩
  · intro i decl stage row hdecl hpassed hrow
    exact flags_or_warning backend hs.tallied hdecl hpassed hrow
  · intro hempty i decl stage id shader hdecl hholds hget hsame d hd hwarns
    have hreported : d ∈ (resolution job effect s).diagnostics := by
      apply (of_mem_kept_link hd hwarns.1).resolve_left
      rw [hempty]
      exact List.not_mem_nil
    exact flags_ne_of_warning hdecl hholds hget hreported hwarns hsame
  · intro i stage id shader hholds hget
    exact flags_of_first_holder hholds hget

/-- A lantern that asks for flags. -/
def flaggedLantern (name flags : String) : ProgramDecl :=
  { lantern name "warm" with
    rows := (lantern name "warm").rows ++ [⟨"CompileFlags", flags, ∅, ⟨"lanterns.json", 10⟩⟩] }

def flaggedLanterns : Effect :=
  { lanterns with
    programs := [flaggedLantern "Amber" "-O1", flaggedLantern "Beacon" "-O2",
      flaggedLantern "Crypt" "-O1"] }

/-- All lanterns share the shader of Amber. Beacon is told that its flags do not count, Crypt is not. -/
theorem link_warns_of_flags_lanterns :
    emptySession.queue.Arises ∧ emptySession.queue.kept = [] ∧
    (∃ id, Holds lanternJob echo flaggedLanterns emptySession 0 .vertex id ∧
      Holds lanternJob echo flaggedLanterns emptySession 1 .vertex id ∧
      Holds lanternJob echo flaggedLanterns emptySession 2 .vertex id) ∧
    (∃ d ∈ (link lanternJob echo flaggedLanterns emptySession).1.queue.kept,
      WarnsAbout "Beacon" .vertex d ∧ d.location = some (lanternRow "warm").location) ∧
    ∀ d ∈ (link lanternJob echo flaggedLanterns emptySession).1.queue.kept,
      ¬WarnsAbout "Crypt" .vertex d := by
  have harises : emptySession.queue.Arises := .empty _
  -- there is one shader, with the flags of Amber
  have hshared (id : Nat) (shader : Shader)
      (h : (link lanternJob echo flaggedLanterns emptySession).2.pool.get? id = some shader) :
      id = 0 ∧ shader.compileFlags = "-O1" := by
    have hpool : (resolution lanternJob flaggedLanterns emptySession).pool.shaders.map
        (·.compileFlags) = ["-O1"] := by decide
    rw [pool_link] at h
    have hat := congrArg (Option.map (·.compileFlags)) h
    rw [Pool.get?, ← List.getElem?_map, hpool] at hat
    obtain ⟨hlt, hflags⟩ := List.getElem?_eq_some_iff.mp hat
    obtain rfl : id = 0 := Nat.lt_one_iff.mp hlt
    exact ⟨rfl, hflags.symm⟩
  obtain ⟨hwarned, hquiet, -⟩ :=
    link_warns_of_flags lanternJob echo flaggedLanterns emptySession harises
  have hlantern (i : Nat) (decl : ProgramDecl) (hdecl : flaggedLanterns.programs[i]? = some decl)
      (hrow : rowOf flaggedLanterns i .vertex = some (lanternRow "warm"))
      (h : (admitted lanternJob flaggedLanterns emptySession)[i]?.map (·.ok) = some true) :=
    hwarned i decl .vertex (lanternRow "warm") hdecl (Option.map_eq_some_iff.mp h) hrow
  obtain ⟨amber, shader, hamber, hget, -⟩ := hlantern 0 _ rfl (by decide) (by decide)
  obtain ⟨beacon, shader', hbeacon, hget', hflags⟩ := hlantern 1 _ rfl (by decide) (by decide)
  obtain ⟨crypt, shader'', hcrypt, hget'', -⟩ := hlantern 2 _ rfl (by decide) (by decide)
  obtain ⟨rfl, -⟩ := hshared amber shader hget
  obtain ⟨rfl, hone⟩ := hshared beacon shader' hget'
  obtain ⟨rfl, hone'⟩ := hshared crypt shader'' hget''
  refine ⟨harises, rfl, ⟨0, hamber, hbeacon, hcrypt⟩, ?_, ?_⟩
  · rw [hone] at hflags
    obtain ⟨d, hd, hwarns, -, hlocation⟩ := hflags.resolve_left (by decide)
    exact ⟨d, hd, hwarns, hlocation⟩
  · have hsame : shader''.compileFlags = flagsOf flaggedLanterns 2 := hone'.trans (by decide)
    exact hquiet rfl 2 (flaggedLantern "Crypt" "-O1") .vertex 0 shader'' rfl hcrypt hget'' hsame

end Linker

end EffectLink
