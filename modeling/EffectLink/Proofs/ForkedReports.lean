import EffectLink.Proofs.QueueAccounting
import Mathlib.Data.List.Induction

/-! A report through a fork leaves the queue with what it leaves when it is added directly: what the
fork refuses, the queue would have refused as well. -/

namespace EffectLink

namespace Queue

variable {q f m n : Queue} {d : Diagnostic} {ds : List Diagnostic}

/-- Two queues whose books balance and that keep the same diagnostics under one configuration. -/
structure Alike (m n : Queue) : Prop where
  left : m.Accounts
  right : n.Accounts
  config : m.config = n.config
  kept : m.kept = n.kept

theorem Alike.limitReached (h : m.Alike n) : m.limitReached = n.limitReached := by
  rw [Bool.eq_iff_iff, h.left.limitReached_iff, h.right.limitReached_iff, h.config, h.kept]

theorem Alike.warnings (h : m.Alike n) : m.warnings = n.warnings := by
  rw [h.left.warnings, h.right.warnings, h.kept]

/-- A queue has errors if and only if it keeps one. -/
theorem Accounts.hasErrors_iff (h : q.Accounts) :
    q.hasErrors = true ↔ 0 < q.kept.countP (·.isError) := by
  have herrors := h.errors
  have hpositive : q.hasErrors = true ↔ 0 < q.errors := by
    unfold hasErrors
    rw [bne_iff_ne, Nat.pos_iff_ne_zero]
  rw [hpositive]
  rcases Nat.eq_zero_or_pos q.config.errorLimit with hzero | hlimit
  · have hnone := h.unlimited hzero
    omega
  · have hkept := h.limited hlimit
    omega

theorem Alike.hasErrors (h : m.Alike n) : m.hasErrors = n.hasErrors := by
  rw [Bool.eq_iff_iff, h.left.hasErrors_iff, h.right.hasErrors_iff, h.kept]

theorem Alike.refuses (h : m.Alike n) (d : Diagnostic) : m.refuses d = n.refuses d := by
  have hseen : m.seen d = true ↔ n.seen d = true := by
    rw [seen_iff, seen_iff, h.config]
    refine and_congr_right fun hdedup => ?_
    rw [h.left.remembered (h.config.symm ▸ hdedup), h.right.remembered hdedup, h.kept]
  unfold Queue.refuses
  rw [Bool.eq_iff_iff.mpr hseen, h.limitReached]

theorem Alike.add (h : m.Alike n) (d : Diagnostic) : (m.add d).Alike (n.add d) := by
  refine ⟨h.left.add d, h.right.add d, ?_, ?_⟩
  · rw [config_add, config_add, h.config]
  · rw [kept_add, kept_add, h.refuses d, h.kept]

theorem Alike.addAll (h : m.Alike n) (ds : List Diagnostic) : (m.addAll ds).Alike (n.addAll ds) := by
  induction ds generalizing m n with
  | nil => exact h
  | cons d ds ih => exact ih (h.add d)

/-- Handing over what a fork keeps is like adding everything that the fork has been given. -/
theorem Accounts.alike_fork (h : q.Accounts) (ds : List Diagnostic) :
    (q.addAll (q.fork.addAll ds).kept).Alike (q.addAll ds) := by
  -- by induction on the report from its end: the last diagnostic meets a fork and a queue in step
  induction ds using List.reverseRecOn with
  | nil => exact ⟨h, h, rfl, rfl⟩
  | append_singleton ds d ih =>
    have hf : (q.fork.addAll ds).Accounts := (accounts_empty q.config).addAll ds
    have hconfig : (q.fork.addAll ds).config = q.config := config_addAll _ _
    rw [addAll_concat, addAll_concat, kept_add]
    cases hrefuses : (q.fork.addAll ds).refuses d with
    | false =>
      rw [if_neg Bool.false_ne_true, addAll_concat]
      exact ih.add d
    | true =>
      rw [if_pos rfl]
      -- the fork has it already, or has no room; either way it would not enter the queue
      have hqueue : (q.addAll (q.fork.addAll ds).kept).refuses d = true := by
        rcases refuses_iff.mp hrefuses with hseen | ⟨herror, hfull⟩
        · obtain ⟨hdedup, hmem⟩ := seen_iff.mp hseen
          have hkept := (hf.remembered hdedup d).mp hmem
          exact refuses_of_mem (hconfig ▸ hdedup) hkept
        · exact refuses_iff.mpr (Or.inr ⟨herror, h.limitReached_addAll hf hconfig hfull⟩)
      refine ⟨ih.left, ih.right.add d, ?_, ?_⟩
      · rw [config_add, ih.config]
      · rw [kept_add, ← ih.refuses d, hqueue, if_pos rfl, ih.kept]

/-- A queue that keeps duplicates counts, through a fork, every error of the report. -/
theorem errors_merge_fork (hdedup : q.config.deduplicate = false) (ds : List Diagnostic) :
    (q.merge (q.fork.addAll ds)).errors = q.errors + ds.countP (·.isError) := by
  have hf : (q.fork.addAll ds).Accounts := (accounts_empty q.config).addAll ds
  have hfork : (q.fork.addAll ds).errors = 0 + ds.countP (·.isError) :=
    errors_addAll (q := q.fork) hdedup ds
  have hkept := errors_addAll hdedup (q.fork.addAll ds).kept
  have hbooks := hf.errors
  change (q.addAll (q.fork.addAll ds).kept).errors + (q.fork.addAll ds).dropped = _
  omega

/-- `m` has taken through forks what `n` has taken directly. -/
structure Transparent (m n : Queue) : Prop extends Alike m n where
  errors : n.config.deduplicate = false → m.errors = n.errors

theorem Transparent.step (h : m.Transparent n) (ds : List Diagnostic) :
    (m.merge (m.fork.addAll ds)).Transparent (n.addAll ds) := by
  have hf : (m.fork.addAll ds).Accounts := (accounts_empty m.config).addAll ds
  have hfconfig : (m.fork.addAll ds).config = m.config := config_addAll _ _
  have hfork := h.left.alike_fork ds
  have hdirect := h.toAlike.addAll ds
  refine ⟨⟨h.left.merge hf hfconfig, hdirect.right, ?_, ?_⟩, fun hdedup => ?_⟩
  · exact hfork.config.trans hdirect.config
  · exact hfork.kept.trans hdirect.kept
  · have hkeeps : n.config.deduplicate = false := config_addAll n ds ▸ hdedup
    have hm : m.config.deduplicate = false := h.config.symm ▸ hkeeps
    rw [errors_merge_fork hm, errors_addAll hkeeps, h.errors hkeeps]

theorem fork_merge (q f : Queue) : (q.merge f).fork = q.fork := by
  have hconfig : (q.merge f).config = q.config := config_addAll q f.kept
  unfold fork
  rw [hconfig]

theorem Transparent.forks (h : m.Transparent n) (chunks : List (List Diagnostic)) :
    ((chunks.map fun ds => m.fork.addAll ds).foldl merge m).Transparent
      (n.addAll chunks.flatten) := by
  induction chunks generalizing m n with
  | nil => exact h
  | cons ds chunks ih =>
    have hrest := ih (h.step ds)
    rw [fork_merge, ← addAll_append] at hrest
    exact hrest

/-- Diagnostics that go through forks, chunk by chunk, leave a queue as if they had been added
directly. The number of errors can differ only if duplicates are refused and errors dropped. -/
theorem merge_forks_transparent (h : q.Reachable) (chunks : List (List Diagnostic)) :
    let merged := (chunks.map fun ds => q.fork.addAll ds).foldl merge q
    let direct := q.addAll chunks.flatten
    merged.kept = direct.kept ∧ merged.warnings = direct.warnings ∧
    merged.hasErrors = direct.hasErrors ∧ merged.limitReached = direct.limitReached ∧
    (q.config.deduplicate = false ∨ q.config.errorLimit = 0 → merged.errors = direct.errors) := by
  intro merged direct
  have hq := h.accounts
  have hforks : merged.Transparent direct :=
    Transparent.forks ⟨⟨hq, hq, rfl, rfl⟩, fun _ => rfl⟩ chunks
  have hconfig : direct.config = q.config := config_addAll q _
  refine ⟨hforks.kept, hforks.warnings, hforks.hasErrors, hforks.limitReached, ?_⟩
  rintro (hdedup | hzero)
  · exact hforks.errors (hconfig ▸ hdedup)
  · -- nothing is dropped, so the errors are those that are kept
    have hmerged := hforks.left.unlimited (hforks.config ▸ hconfig ▸ hzero)
    have hdirect := hforks.right.unlimited (hconfig ▸ hzero)
    rw [hforks.left.errors, hforks.right.errors, hforks.kept, hmerged, hdirect]

/-- A queue with room for one error, which it has. -/
def filled : Queue := (empty ⟨1, true⟩).addAll [crowdedError "a"]

/-- The fork takes the new error for the first and drops the one that the queue keeps, which then counts
once more than it does directly. -/
theorem merge_forks_transparent_filled :
    let chunks := [[crowdedError "b", crowdedError "a"], [.plain .warning .noStrategy "c"]]
    let merged := (chunks.map fun ds => filled.fork.addAll ds).foldl merge filled
    let direct := filled.addAll chunks.flatten
    filled.Reachable ∧ merged.kept = direct.kept ∧ merged.warnings = direct.warnings ∧
    merged.hasErrors = direct.hasErrors ∧ merged.limitReached = direct.limitReached ∧
    direct.kept.map (·.message) = ["a", "c"] ∧ merged.errors = 3 ∧ direct.errors = 2 := by
  intro chunks merged direct
  have hreachable : filled.Reachable := (Reachable.empty _).addAll _
  obtain ⟨hkept, hwarnings, hhas, hlimit, -⟩ := merge_forks_transparent hreachable chunks
  exact ⟨hreachable, hkept, hwarnings, hhas, hlimit, by decide, by decide, by decide⟩

end Queue

end EffectLink
