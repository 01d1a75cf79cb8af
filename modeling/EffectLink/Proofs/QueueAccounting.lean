import EffectLink.Proofs.QueueMerging
import Mathlib.Data.List.Perm.Subperm

namespace EffectLink

namespace Queue

variable {q f : Queue} {d a : Diagnostic} {ds : List Diagnostic}

/-- What the counters of a queue say about its lists, whatever has been merged into it. -/
structure Tallied (q : Queue) : Prop where
  errors : q.errors = q.kept.countP (·.isError) + q.dropped
  warnings : q.warnings = q.kept.countP (·.isWarning)
  distinct : q.config.deduplicate = true → q.kept.Nodup
  remembered : q.config.deduplicate = true → ∀ d, d ∈ q.remembered ↔ d ∈ q.kept

/-- The limit shows in the counters too, if only queues of one configuration are merged. -/
structure Accounts (q : Queue) : Prop extends Tallied q where
  unlimited : q.config.errorLimit = 0 → q.dropped = 0
  limited : 0 < q.config.errorLimit →
    q.kept.countP (·.isError) = min q.errors q.config.errorLimit

theorem tallied_empty (config : QueueConfig) : (empty config).Tallied :=
  ⟨rfl, rfl, fun _ => List.nodup_nil, fun _ _ => Iff.rfl⟩

theorem accounts_empty (config : QueueConfig) : (empty config).Accounts :=
  ⟨tallied_empty config, fun _ => rfl, fun _ => (Nat.zero_min _).symm⟩

theorem seen_iff : q.seen d = true ↔ q.config.deduplicate = true ∧ d ∈ q.remembered := by
  unfold seen
  rw [Bool.and_eq_true, List.contains_iff_mem]

theorem limitReached_iff :
    q.limitReached = true ↔ 0 < q.config.errorLimit ∧ q.config.errorLimit ≤ q.errors := by
  unfold limitReached
  rw [Bool.and_eq_true, decide_eq_true_eq, bne_iff_ne, Nat.pos_iff_ne_zero]

/-- The limit is reached when as many errors are kept as it allows. -/
theorem Accounts.limitReached_iff (h : q.Accounts) :
    q.limitReached = true ↔
      0 < q.config.errorLimit ∧ q.config.errorLimit ≤ q.kept.countP (·.isError) := by
  rw [Queue.limitReached_iff]
  constructor
  · rintro ⟨hlimit, hreached⟩
    have hkept := h.limited hlimit
    omega
  · rintro ⟨hlimit, hreached⟩
    have herrors := h.errors
    omega

theorem countP_concat (p : Diagnostic → Bool) (kept : List Diagnostic) (d : Diagnostic) :
    (kept ++ [d]).countP p = kept.countP p + (p d).toNat := by
  rw [List.countP_append, List.countP_singleton]
  cases p d <;> rfl

theorem Tallied.add (h : q.Tallied) (d : Diagnostic) : (q.add d).Tallied := by
  have herrors := h.errors
  have hwarnings := h.warnings
  rcases q.add_cases d with ⟨-, hadd⟩ | ⟨-, -, -, hadd⟩ | ⟨hseen, -, hadd⟩
  · rw [hadd]
    exact h
  · rw [hadd]
    refine ⟨?_, h.warnings, h.distinct, h.remembered⟩
    change q.errors + 1 = q.kept.countP (·.isError) + (q.dropped + 1)
    omega
  · rw [hadd]
    refine ⟨?_, ?_, fun hdedup => ?_, fun hdedup b => ?_⟩
    · change q.errors + d.isError.toNat = (q.kept ++ [d]).countP (·.isError) + q.dropped
      rw [countP_concat]
      omega
    · change q.warnings + d.isWarning.toNat = (q.kept ++ [d]).countP (·.isWarning)
      rw [countP_concat]
      omega
    · change q.config.deduplicate = true at hdedup
      have hnew : d ∉ q.kept := by
        intro hmem
        rw [seen_iff.mpr ⟨hdedup, (h.remembered hdedup d).mpr hmem⟩] at hseen
        contradiction
      refine List.nodup_append.mpr ⟨h.distinct hdedup, List.pairwise_singleton _ _, ?_⟩
      rintro x hx y hy rfl
      rw [List.mem_singleton.mp hy] at hx
      exact hnew hx
    · change q.config.deduplicate = true at hdedup
      change b ∈ (if q.config.deduplicate then d :: q.remembered else q.remembered) ↔
        b ∈ q.kept ++ [d]
      rw [if_pos hdedup, List.mem_cons, List.mem_append, List.mem_singleton, h.remembered hdedup b,
        or_comm]

theorem Tallied.addAll (h : q.Tallied) (ds : List Diagnostic) : (q.addAll ds).Tallied := by
  induction ds generalizing q with
  | nil => exact h
  | cons d ds ih => exact ih (h.add d)

theorem Accounts.add (h : q.Accounts) (d : Diagnostic) : (q.add d).Accounts := by
  refine ⟨h.toTallied.add d, ?_, ?_⟩
  · intro hzero
    rw [config_add] at hzero
    rcases q.add_cases d with ⟨-, hadd⟩ | ⟨-, -, hfull, -⟩ | ⟨-, -, hadd⟩
    · rw [hadd]
      exact h.unlimited hzero
    · obtain ⟨hlimit, -⟩ := Queue.limitReached_iff.mp hfull
      omega
    · rw [hadd]
      exact h.unlimited hzero
  · intro hlimit
    rw [config_add] at hlimit ⊢
    have hkept := h.limited hlimit
    rcases q.add_cases d with ⟨-, hadd⟩ | ⟨-, -, hfull, hadd⟩ | ⟨-, hroom, hadd⟩
    · rw [hadd]
      exact hkept
    · obtain ⟨-, hreached⟩ := Queue.limitReached_iff.mp hfull
      rw [hadd]
      change q.kept.countP (·.isError) = min (q.errors + 1) q.config.errorLimit
      omega
    · rw [hadd]
      change (q.kept ++ [d]).countP (·.isError) =
        min (q.errors + d.isError.toNat) q.config.errorLimit
      rw [countP_concat]
      cases herror : d.isError with
      | false =>
        change q.kept.countP (·.isError) + 0 = min (q.errors + 0) q.config.errorLimit
        omega
      | true =>
        -- there was room for it, so all errors so far are kept
        have hbelow : q.errors < q.config.errorLimit := by
          by_contra hnot
          rw [Queue.limitReached_iff.mpr ⟨hlimit, by omega⟩] at hroom
          exact absurd (hroom herror) (by decide)
        have herrors := h.errors
        change q.kept.countP (·.isError) + 1 = min (q.errors + 1) q.config.errorLimit
        omega

theorem Accounts.addAll (h : q.Accounts) (ds : List Diagnostic) : (q.addAll ds).Accounts := by
  induction ds generalizing q with
  | nil => exact h
  | cons d ds ih => exact ih (h.add d)

/-- Whether the queue keeps what it keeps when it is offered `d`. -/
def refuses (q : Queue) (d : Diagnostic) : Bool := q.seen d || (d.isError && q.limitReached)

theorem refuses_iff :
    q.refuses d = true ↔ q.seen d = true ∨ d.isError = true ∧ q.limitReached = true := by
  unfold refuses
  rw [Bool.or_eq_true, Bool.and_eq_true]

theorem kept_add (q : Queue) (d : Diagnostic) :
    (q.add d).kept = if q.refuses d then q.kept else q.kept ++ [d] := by
  rcases q.add_cases d with ⟨hseen, hadd⟩ | ⟨-, herror, hfull, hadd⟩ | ⟨hseen, hroom, hadd⟩
  · rw [hadd, if_pos (refuses_iff.mpr (Or.inl hseen))]
  · rw [hadd, if_pos (refuses_iff.mpr (Or.inr ⟨herror, hfull⟩))]
  · have hkeeps : ¬q.refuses d = true := by
      intro hrefuses
      rcases refuses_iff.mp hrefuses with hdup | ⟨herror, hfull⟩
      · rw [hseen] at hdup
        contradiction
      · rw [hroom herror] at hfull
        contradiction
    rw [hadd, if_neg hkeeps]
    rfl

theorem errors_le_errors_add (q : Queue) (d : Diagnostic) : q.errors ≤ (q.add d).errors := by
  rcases q.add_cases d with ⟨-, hadd⟩ | ⟨-, -, -, hadd⟩ | ⟨-, -, hadd⟩
  · exact Nat.le_of_eq (congrArg errors hadd.symm)
  · rw [hadd]
    exact Nat.le_succ _
  · rw [hadd]
    exact Nat.le_add_right _ _

theorem remembered_subset_add (q : Queue) (d : Diagnostic) : q.remembered ⊆ (q.add d).remembered := by
  intro a ha
  rcases q.add_cases d with ⟨-, hadd⟩ | ⟨-, -, -, hadd⟩ | ⟨-, -, hadd⟩
  · rw [hadd]
    exact ha
  · rw [hadd]
    exact ha
  · rw [hadd, keep]
    dsimp only
    split
    · exact List.mem_cons_of_mem _ ha
    · exact ha

/-- What is refused once stays refused. -/
theorem refuses_add (h : q.refuses d = true) (a : Diagnostic) : (q.add a).refuses d = true := by
  apply refuses_iff.mpr
  rcases refuses_iff.mp h with hseen | ⟨herror, hfull⟩
  · obtain ⟨hdedup, hmem⟩ := seen_iff.mp hseen
    exact Or.inl (seen_iff.mpr ⟨(config_add q a).symm ▸ hdedup, remembered_subset_add q a hmem⟩)
  · exact Or.inr ⟨herror,
      limitReached_mono (config_add q a).symm (errors_le_errors_add q a) hfull⟩

theorem refuses_addAll (h : q.refuses d = true) (ds : List Diagnostic) :
    (q.addAll ds).refuses d = true := by
  induction ds generalizing q with
  | nil => exact h
  | cons a ds ih => exact ih (refuses_add h a)

/-- A deduplicating queue refuses what it has just been offered. -/
theorem refuses_self (hdedup : q.config.deduplicate = true) (d : Diagnostic) :
    (q.add d).refuses d = true := by
  rcases q.add_cases d with ⟨hseen, hadd⟩ | ⟨-, herror, hfull, -⟩ | ⟨-, -, hadd⟩
  · rw [hadd]
    exact refuses_iff.mpr (Or.inl hseen)
  · exact refuses_add (refuses_iff.mpr (Or.inr ⟨herror, hfull⟩)) d
  · apply refuses_iff.mpr
    refine Or.inl (seen_iff.mpr ⟨(config_add q d).symm ▸ hdedup, ?_⟩)
    rw [hadd, keep]
    dsimp only
    rw [if_pos hdedup]
    exact List.mem_cons_self

theorem refuses_of_mem (hdedup : q.config.deduplicate = true) (hd : d ∈ ds) :
    (q.addAll ds).refuses d = true := by
  induction ds generalizing q with
  | nil => exact absurd hd List.not_mem_nil
  | cons a ds ih =>
    rcases List.mem_cons.mp hd with rfl | hd
    · exact refuses_addAll (refuses_self hdedup d) ds
    · exact ih ((config_add q a).symm ▸ hdedup) hd

/-- A queue that keeps duplicates counts every error. -/
theorem errors_addAll (hdedup : q.config.deduplicate = false) (ds : List Diagnostic) :
    (q.addAll ds).errors = q.errors + ds.countP (·.isError) := by
  induction ds generalizing q with
  | nil => rfl
  | cons d ds ih =>
    have hone : (q.add d).errors = q.errors + d.isError.toNat := by
      rcases q.add_cases d with ⟨hseen, -⟩ | ⟨-, herror, -, hadd⟩ | ⟨-, -, hadd⟩
      · rw [(seen_iff.mp hseen).1] at hdedup
        contradiction
      · rw [hadd, herror]
        rfl
      · rw [hadd]
        rfl
    have hcount : (d :: ds).countP (·.isError) = ds.countP (·.isError) + d.isError.toNat := by
      rw [List.countP_cons]
      cases d.isError <;> rfl
    have hrest := ih (q := q.add d) ((config_add q d).symm ▸ hdedup)
    change ((q.add d).addAll ds).errors = _
    omega

/-- Whoever is offered the errors of a queue that has no more room has none either. -/
theorem Accounts.limitReached_addAll (h : q.Accounts) (hf : f.Accounts) (hconfig : f.config = q.config)
    (hfull : f.limitReached = true) : (q.addAll f.kept).limitReached = true := by
  have hm : (q.addAll f.kept).Accounts := h.addAll f.kept
  have hmconfig : (q.addAll f.kept).config = f.config := by rw [config_addAll, hconfig]
  obtain ⟨hlimit, hreached⟩ := hf.limitReached_iff.mp hfull
  cases hdedup : q.config.deduplicate with
  | false =>
    have hcount := errors_addAll hdedup f.kept
    apply Queue.limitReached_iff.mpr
    rw [hmconfig]
    omega
  | true =>
    by_contra hroom
    -- then none of the errors was dropped, and they are all different
    have hsubset : f.kept.filter (·.isError) ⊆ (q.addAll f.kept).kept.filter (·.isError) := by
      intro d hd
      obtain ⟨hd, herror⟩ := List.mem_filter.mp hd
      rcases refuses_iff.mp (refuses_of_mem hdedup hd) with hseen | ⟨-, hfull⟩
      · obtain ⟨hdedup', hmem⟩ := seen_iff.mp hseen
        exact List.mem_filter.mpr ⟨(hm.remembered hdedup' d).mp hmem, herror⟩
      · exact absurd hfull hroom
    have hnodup : (f.kept.filter (·.isError)).Nodup :=
      (hf.distinct (hconfig.symm ▸ hdedup)).filter _
    have hcount : f.kept.countP (·.isError) ≤ (q.addAll f.kept).kept.countP (·.isError) := by
      rw [List.countP_eq_length_filter, List.countP_eq_length_filter]
      exact (hnodup.subperm hsubset).length_le
    apply hroom
    apply hm.limitReached_iff.mpr
    rw [hmconfig]
    omega

theorem Tallied.merge (h : q.Tallied) (f : Queue) : (q.merge f).Tallied := by
  have hm : (q.addAll f.kept).Tallied := h.addAll f.kept
  have herrors := hm.errors
  refine ⟨?_, hm.warnings, hm.distinct, hm.remembered⟩
  change (q.addAll f.kept).errors + f.dropped =
    (q.addAll f.kept).kept.countP (·.isError) + ((q.addAll f.kept).dropped + f.dropped)
  omega

theorem Accounts.merge (h : q.Accounts) (hf : f.Accounts) (hconfig : f.config = q.config) :
    (q.merge f).Accounts := by
  have hm : (q.addAll f.kept).Accounts := h.addAll f.kept
  have hmconfig : (q.addAll f.kept).config = f.config := by rw [config_addAll, hconfig]
  refine ⟨h.toTallied.merge f, fun hzero => ?_, fun hlimit => ?_⟩
  · change (q.addAll f.kept).config.errorLimit = 0 at hzero
    have hnone : f.dropped = 0 := hf.unlimited (hmconfig ▸ hzero)
    change (q.addAll f.kept).dropped + f.dropped = 0
    rw [hm.unlimited hzero, hnone]
  · change 0 < (q.addAll f.kept).config.errorLimit at hlimit
    change (q.addAll f.kept).kept.countP (·.isError) =
      min ((q.addAll f.kept).errors + f.dropped) (q.addAll f.kept).config.errorLimit
    have hkept := hm.limited hlimit
    cases hdropped : f.dropped with
    | zero => exact hkept
    | succ n =>
      -- something was dropped, so the queue is full and further errors change nothing
      have hferrors := hf.errors
      have hfkept := hf.limited (hmconfig ▸ hlimit)
      have hfull : f.limitReached = true :=
        Queue.limitReached_iff.mpr ⟨hmconfig ▸ hlimit, by omega⟩
      obtain ⟨-, hreached⟩ :=
        Queue.limitReached_iff.mp (h.limitReached_addAll hf hconfig hfull)
      omega

/-- Queues that come from empty ones. Reporting an error or a warning is adding it. -/
inductive Reachable : Queue → Prop
  | empty (config : QueueConfig) : Reachable (empty config)
  | add {q : Queue} (h : Reachable q) (d : Diagnostic) : Reachable (q.add d)
  | fork {q : Queue} (h : Reachable q) : Reachable q.fork
  | merge {q other : Queue} (h : Reachable q) (hother : Reachable other)
    (hconfig : other.config = q.config) : Reachable (q.merge other)
  | flush {q : Queue} (h : Reachable q) : Reachable q.flush.2

theorem Reachable.accounts (h : q.Reachable) : q.Accounts := by
  induction h with
  | empty config => exact accounts_empty config
  | add _ d ih => exact ih.add d
  | fork _ _ => exact accounts_empty _
  | merge _ _ hconfig ih ihother => exact ih.merge ihother hconfig
  | flush _ _ => exact accounts_empty _

theorem Reachable.addAll (h : q.Reachable) (ds : List Diagnostic) : (q.addAll ds).Reachable := by
  induction ds generalizing q with
  | nil => exact h
  | cons d ds ih => exact ih (.add h d)

/-- The books of every queue balance, whatever has been done to it. -/
theorem accounting_of_reachable (h : q.Reachable) :
    q.errors = q.kept.countP (·.isError) + q.dropped ∧
    q.warnings = q.kept.countP (·.isWarning) ∧
    (q.config.errorLimit = 0 → q.dropped = 0) ∧
    (0 < q.config.errorLimit →
      q.kept.countP (·.isError) = min q.errors q.config.errorLimit) ∧
    (q.config.deduplicate = true →
      q.kept.Nodup ∧ ∀ d, d ∈ q.remembered ↔ d ∈ q.kept) := by
  have haccounts := h.accounts
  exact ⟨haccounts.errors, haccounts.warnings, haccounts.unlimited, haccounts.limited,
    fun hdedup => ⟨haccounts.distinct hdedup, haccounts.remembered hdedup⟩⟩

def crowdedError (message : String) : Diagnostic := .plain .error .linkFailure message

/-- A queue with room for two errors. The second queue that is merged into it repeats the first error,
brings a second one and has dropped a third. -/
def crowded : Queue :=
  let config : QueueConfig := ⟨2, true⟩
  ((empty config).addAll [crowdedError "a"]).merge ((empty config).addAll
    [crowdedError "a", crowdedError "b", crowdedError "c", .plain .warning .noStrategy "d"])

theorem accounting_of_reachable_crowded :
    crowded.Reachable ∧ crowded.errors = 3 ∧ crowded.warnings = 1 ∧
    crowded.errors = crowded.kept.countP (·.isError) + crowded.dropped ∧
    crowded.kept.countP (·.isError) = min crowded.errors 2 ∧
    crowded.kept.Nodup ∧ ∀ d, d ∈ crowded.remembered ↔ d ∈ crowded.kept := by
  have hreachable : crowded.Reachable :=
    .merge ((Reachable.empty _).addAll _) ((Reachable.empty _).addAll _) (by decide)
  obtain ⟨herrors, -, -, hlimited, hdistinct⟩ := accounting_of_reachable hreachable
  exact ⟨hreachable, by decide, by decide, herrors, hlimited (by decide), hdistinct (by decide)⟩

end Queue

end EffectLink
