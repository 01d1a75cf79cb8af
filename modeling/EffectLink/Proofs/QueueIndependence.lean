import EffectLink.Proofs.FailedPrograms

/-! The queue decides one thing about what is built: whether the faults of the declarations add to
its error count. A queue that keeps them already lets the programs of a faulty effect go on. -/

namespace EffectLink

/-- A queue refuses every fault in the declarations of an effect as a duplicate. That is so of any queue
if there are no faults. -/
def Effect.KnownTo (effect : Effect) (q : Queue) : Prop :=
  ∀ d ∈ (effect.check .empty).faults, q.config.deduplicate = true ∧ d ∈ q.kept

instance (effect : Effect) (q : Queue) : Decidable (effect.KnownTo q) :=
  inferInstanceAs (Decidable (∀ d ∈ (effect.check .empty).faults,
    q.config.deduplicate = true ∧ d ∈ q.kept))

/-- Whether a call compiles a shader. -/
def Call.compiles : Call → Bool
  | .compile _ _ => true
  | _ => false

namespace Linker

variable {U : Type}

theorem sound_iff_seen (effect : Effect) (s : Session) :
    sound effect s = true ↔ ∀ d ∈ (effect.check .empty).faults, s.queue.seen d = true := by
  unfold sound
  rw [beq_iff_eq]
  exact Queue.errors_addAll_eq_iff fun d hd => (effect.flaws_check .empty d hd).1

theorem sound_iff (effect : Effect) {s : Session} (h : s.queue.Tallied) :
    sound effect s = true ↔ effect.KnownTo s.queue := by
  rw [sound_iff_seen]
  refine forall₂_congr fun d _ => ?_
  rw [Queue.seen_iff]
  exact and_congr_right fun hdedup => h.remembered hdedup d

theorem sound_eq_false (effect : Effect) {s : Session} (h : s.queue.Tallied)
    (hfault : ¬effect.KnownTo s.queue) : sound effect s = false :=
  Bool.eq_false_iff.mpr fun hsound => hfault ((sound_iff effect h).mp hsound)

theorem passed_iff (job : Job) (effect : Effect) {s : Session} (h : s.queue.Tallied) (i : Nat) :
    Passed job effect s i ↔ effect.KnownTo s.queue ∧
      ∃ linked, (validateAll job.options (effect.check .empty).table effect.programs).programs[i]? =
        some linked ∧ linked.ok = true := by
  unfold Passed admitted
  rw [List.getElem?_map]
  constructor
  · rintro ⟨_, hi, hok⟩
    obtain ⟨validated, hvalidated, rfl⟩ := Option.map_eq_some_iff.mp hi
    obtain ⟨hpassed, hsound⟩ := Bool.and_eq_true_iff.mp hok
    exact ⟨(sound_iff effect h).mp hsound, validated, hvalidated, hpassed⟩
  · rintro ⟨hknown, validated, hvalidated, hpassed⟩
    refine ⟨_, Option.map_eq_some_iff.mpr ⟨validated, hvalidated, rfl⟩, ?_⟩
    exact Bool.and_eq_true_iff.mpr ⟨hpassed, (sound_iff effect h).mpr hknown⟩

section Built

variable (job : Job) {effect : Effect} {s t : Session}

theorem resolution_congr (h : sound effect s = sound effect t) :
    resolution job effect s = resolution job effect t := by
  have hadmitted : admitted job effect s = admitted job effect t := by
    unfold admitted
    rw [h]
  unfold resolution
  rw [hadmitted]

/-- The session matters to the result of linking in one bit. -/
theorem link_result_congr (backend : Backend U) (h : sound effect s = sound effect t) :
    (link job backend effect s).2 = (link job backend effect t).2 := by
  have hparts (s : Session) : (link job backend effect s).2 =
      ⟨(link job backend effect s).2.programs, (link job backend effect s).2.pool⟩ := rfl
  rw [hparts s, hparts t, programs_link, programs_link, pool_link, pool_link,
    resolution_congr job h]

theorem resolveAll_of_not_ok {symbols : SymbolTable} (header : Header) (pool : Pool)
    {programs : List LinkedProgram} (h : ∀ linked ∈ programs, linked.ok = false) :
    resolveAll symbols header pool programs = ⟨programs, pool, []⟩ := by
  induction programs with
  | nil => rfl
  | cons linked rest ih =>
    obtain ⟨hlinked, hrest⟩ := List.forall_mem_cons.mp h
    rw [resolveAll_cons_of_not_ok header pool (Bool.eq_false_iff.mp hlinked), ih hrest]

theorem resolution_of_unsound (h : sound effect s = false) :
    resolution job effect s = ⟨admitted job effect s, .empty, []⟩ ∧
      ∀ linked ∈ admitted job effect s, linked.ok = false := by
  have hfailed : ∀ linked ∈ admitted job effect s, linked.ok = false := by
    intro linked hmem
    obtain ⟨validated, -, rfl⟩ := List.mem_map.mp hmem
    rw [h]
    exact Bool.and_false _
  exact ⟨resolveAll_of_not_ok job.header .empty hfailed, hfailed⟩

theorem link_of_unsound (backend : Backend U) (h : sound effect s = false) :
    (∀ linked ∈ (link job backend effect s).2.programs, linked.ok = false) ∧
      (link job backend effect s).2.pool = .empty := by
  obtain ⟨hresolved, hfailed⟩ := resolution_of_unsound job h
  constructor
  · intro linked hmem
    rw [programs_link, hresolved] at hmem
    obtain ⟨before, hbefore, rfl⟩ := List.mem_map.mp hmem
    have hok := hfailed before hbefore
    rw [linkOne, if_neg (Bool.eq_false_iff.mp hok)]
    exact hok
  · rw [pool_link, hresolved]

end Built

section Calls

variable {medium : Medium} (job : Job) (backend : Backend U) (s : Session)

/-- What a shader that has a source leads to: the source is written, where sources are asked for, and
compiled. -/
def shaderCalls (shader : Shader) : List Call :=
  match job.generate job.header shader with
  | .ok source =>
    (if job.header.switches.dumpSources then [.write (dumpPath job.outDir shader)] else []) ++
      [.compile shader.stage source]
  | .error _ => []

/-- The calls that compile the shaders of a pool, for targets that need them. -/
def compileCalls (pool : Pool) : List Call :=
  if (Strategy.ofHeader job.header).needsUnits then pool.shaders.flatMap (shaderCalls job) else []

/-- The calls of the program objects, one program after the other. -/
def linkCalls (resolved : ResolvedAll) : List Call :=
  resolved.programs.flatMap (objectCalls backend
    (Program.unitsOf (compiledUnit job backend) job.header resolved.pool) job.header)

theorem dumped_calls (shader : Shader) (source : String) :
    (dumped job s shader source medium).calls = s.calls ++
      if job.header.switches.dumpSources then [.write (dumpPath job.outDir shader)] else [] := by
  unfold dumped
  split
  · unfold dumpSource
    dsimp only
    split <;> rfl
  · exact (List.append_nil _).symm

theorem compileShader_calls (shader : Shader) :
    (compileShader job backend s shader medium).1.calls = s.calls ++ shaderCalls job shader := by
  unfold shaderCalls
  have hcalled (source : String) :
      ((dumped job s shader source medium).call (.compile shader.stage source)).calls =
        s.calls ++ ((if job.header.switches.dumpSources then [.write (dumpPath job.outDir shader)]
          else []) ++ [.compile shader.stage source]) := by
    rw [← List.append_assoc, ← dumped_calls job s shader source]
    rfl
  rcases compileShader_cases job backend s shader with
    ⟨message, hsource, hr⟩ | ⟨source, hsource, ⟨unit, -, hr⟩ | ⟨log, -, hr⟩⟩
  · rw [hr, hsource]
    exact (List.append_nil _).symm
  · rw [hr, hsource]
    exact hcalled source
  · rw [hr, hsource]
    exact hcalled source

theorem compileAll_calls (shaders : List Shader) :
    (compileAll job backend s shaders medium).1.calls =
      s.calls ++ shaders.flatMap (shaderCalls job) := by
  induction shaders generalizing s with
  | nil => exact (List.append_nil _).symm
  | cons shader rest ih =>
    rw [List.flatMap_cons, ← List.append_assoc, ← compileShader_calls job backend s shader]
    exact ih _

theorem units_calls (pool : Pool) :
    (units job backend pool s medium).1.calls = s.calls ++ compileCalls job pool := by
  unfold units compileCalls
  split
  · exact compileAll_calls job backend s pool.shaders
  · exact (List.append_nil _).symm

/-- Linking compiles the shaders and then uses the program objects. -/
theorem link_calls (effect : Effect) :
    (link job backend effect s medium).1.calls =
      s.calls ++ compileCalls job (resolution job effect s).pool ++
        linkCalls job backend (resolution job effect s) := by
  rw [link_eq]
  dsimp only [linkBy, linkAll, linkCalls]
  rw [units_eq, units_calls]
  rfl

/-- Programs that are given up have no objects. -/
theorem linkCalls_of_not_ok {resolved : ResolvedAll}
    (h : ∀ linked ∈ resolved.programs, linked.ok = false) : linkCalls job backend resolved = [] := by
  refine List.flatMap_eq_nil_iff.mpr fun linked hmem => ?_
  rw [objectCalls, if_neg (Bool.eq_false_iff.mp (h linked hmem))]

end Calls

/-- Linking from two queues gives the same programs in the same states, the same pool and the same calls
of the backend, unless one of the queues refuses all faults of the declarations as duplicates and the
other does not. A queue that does not refuse them all stops every program, and no shader is compiled. If
it does refuse them all, then every program goes on that passes its own validation. -/
theorem link_from_queues (job : Job) (backend : Backend U) (effect : Effect) (s t : Session)
    (hs : s.queue.Arises) (ht : t.queue.Arises) :
    ((effect.KnownTo s.queue ↔ effect.KnownTo t.queue) →
      (link job backend effect s).2 = (link job backend effect t).2 ∧
      ∃ calls, (link job backend effect s).1.calls = s.calls ++ calls ∧
        (link job backend effect t).1.calls = t.calls ++ calls) ∧
    (¬effect.KnownTo s.queue →
      (∀ linked ∈ (link job backend effect s).2.programs, linked.ok = false) ∧
      (link job backend effect s).2.pool = .empty ∧
      (link job backend effect s).1.calls = s.calls) ∧
    ∀ i, Passed job effect s i ↔ effect.KnownTo s.queue ∧
      ∃ linked, (validateAll job.options (effect.check .empty).table effect.programs).programs[i]? =
        some linked ∧ linked.ok = true := by
  refine ⟨fun hknown => ?_, fun hfault => ?_, passed_iff job effect hs.tallied⟩
  · have hsound : sound effect s = sound effect t := by
      rw [Bool.eq_iff_iff, sound_iff effect hs.tallied, sound_iff effect ht.tallied]
      exact hknown
    refine ⟨link_result_congr job backend hsound,
      compileCalls job (resolution job effect s).pool ++ linkCalls job backend (resolution job effect s),
      ?_, ?_⟩
    · rw [link_calls, List.append_assoc]
    · rw [link_calls, List.append_assoc, resolution_congr job hsound]
  · have hsound := sound_eq_false effect hs.tallied hfault
    obtain ⟨hfailed, hpool⟩ := link_of_unsound job backend hsound
    refine ⟨hfailed, hpool, ?_⟩
    obtain ⟨hresolved, hgiven⟩ := resolution_of_unsound job hsound
    have hcompiled : compileCalls job .empty = [] := ite_self []
    rw [link_calls, hresolved, linkCalls_of_not_ok job backend hgiven, hcompiled, List.append_nil,
      List.append_nil]

/-- The lanterns, with a second variable of one name. -/
def cracked : Effect :=
  { lanterns with
    globals := lanterns.globals ++ [⟨"tint", ⟨"lanterns.json", 9⟩, .builtin .float, none, true⟩] }

/-- A session in which the cracked lanterns have been linked before. -/
def usedSession : Session := (link lanternJob echo cracked emptySession).1

theorem arises_usedSession : usedSession.queue.Arises :=
  (link_receives lanternJob echo cracked emptySession).arises (.empty _)

/-- A session that knows of the crack after another error, and has room for no more. -/
def wornSession : Session :=
  ⟨((Queue.empty ⟨2, true⟩).add (.plain .error .linkFailure "a")).addAll (cracked.check .empty).faults,
    ⟨[], []⟩, [.acquire]⟩

/-- The two sessions that know of the crack build the same lanterns, Crypt among them, and the one that
does not builds none. -/
theorem link_from_queues_cracked :
    usedSession.queue.Arises ∧ wornSession.queue.Arises ∧ emptySession.queue.Arises ∧
    (link lanternJob echo cracked usedSession).2 = (link lanternJob echo cracked wornSession).2 ∧
    Passed lanternJob cracked usedSession 2 ∧
    (∀ linked ∈ (link lanternJob echo cracked emptySession).2.programs, linked.ok = false) ∧
    (link lanternJob echo cracked emptySession).1.calls = [] := by
  have hworn : wornSession.queue.Arises := Queue.Arises.addAll (.add (.empty _) _) _
  have hempty : emptySession.queue.Arises := .empty _
  have hknown : cracked.KnownTo usedSession.queue := by decide
  obtain ⟨hsame, -, hpassed⟩ :=
    link_from_queues lanternJob echo cracked usedSession wornSession arises_usedSession hworn
  obtain ⟨-, hstopped, -⟩ :=
    link_from_queues lanternJob echo cracked emptySession emptySession hempty hempty
  have hpasses : ∃ linked, (validateAll lanternJob.options (cracked.check .empty).table
      cracked.programs).programs[2]? = some linked ∧ linked.ok = true :=
    Option.map_eq_some_iff.mp (by decide)
  refine ⟨arises_usedSession, hworn, hempty, (hsame ?_).1, (hpassed 2).mpr ⟨hknown, hpasses⟩,
    (hstopped (by decide)).1, (hstopped (by decide)).2.2⟩
  exact iff_of_true hknown (by decide)

/-- What is built depends on the queue. The second variable is an error, and it stops all lanterns; but
when the same effect is linked once more with the same queue, three of them are linked. -/
theorem link_forgives_known_faults :
    (cracked.check .empty).faults.length = 1 ∧ usedSession.queue.Arises ∧
    (link lanternJob echo cracked emptySession).2.programs.map (·.ok) =
      [false, false, false, false] ∧
    (link lanternJob echo cracked emptySession).1.calls = [] ∧
    (link lanternJob echo cracked usedSession).2.programs.map (·.ok) = [true, true, true, false] ∧
    (link lanternJob echo cracked usedSession).1.calls.countP Call.compiles = 2 :=
  ⟨by decide, arises_usedSession, by decide, by decide, by decide, by decide⟩

end Linker

end EffectLink
