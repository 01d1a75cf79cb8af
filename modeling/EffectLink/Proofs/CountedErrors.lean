import EffectLink.Proofs.QueueAccounting

namespace EffectLink

namespace Queue

variable {q f m : Queue} {d : Diagnostic} {ds : List Diagnostic} {sort : Diagnostic → Prop}

/-- Queues that come from empty ones. Queues of different configurations may be merged, which
`Reachable` leaves out. -/
inductive Arises : Queue → Prop
  | empty (config : QueueConfig) : Arises (empty config)
  | add {q : Queue} (h : Arises q) (d : Diagnostic) : Arises (q.add d)
  | fork {q : Queue} (h : Arises q) : Arises q.fork
  | merge {q other : Queue} (h : Arises q) (hother : Arises other) : Arises (q.merge other)
  | flush {q : Queue} (h : Arises q) : Arises q.flush.2

theorem Arises.tallied (h : q.Arises) : q.Tallied := by
  induction h with
  | empty config => exact tallied_empty config
  | add _ d ih => exact ih.add d
  | fork _ _ => exact tallied_empty _
  | merge _ _ ih _ => exact ih.merge _
  | flush _ _ => exact tallied_empty _

theorem Arises.addAll (h : q.Arises) (ds : List Diagnostic) : (q.addAll ds).Arises := by
  induction ds generalizing q with
  | nil => exact h
  | cons d ds ih => exact ih (.add h d)

theorem errors_le_addAll (q : Queue) (ds : List Diagnostic) : q.errors ≤ (q.addAll ds).errors := by
  induction ds generalizing q with
  | nil => exact Nat.le_refl _
  | cons d ds ih =>
    calc q.errors ≤ (q.add d).errors := errors_le_errors_add q d
      _ ≤ ((q.add d).addAll ds).errors := ih (q.add d)

theorem errors_le_merge (q f : Queue) : q.errors ≤ (q.merge f).errors := by
  calc q.errors ≤ (q.addAll f.kept).errors := errors_le_addAll q f.kept
    _ ≤ (q.addAll f.kept).errors + f.dropped := Nat.le_add_right _ _

theorem errors_le_foldl_merge (q : Queue) (filled : List Queue) :
    q.errors ≤ (filled.foldl merge q).errors := by
  induction filled generalizing q with
  | nil => exact Nat.le_refl _
  | cons f filled ih =>
    calc q.errors ≤ (q.merge f).errors := errors_le_merge q f
      _ ≤ (filled.foldl merge (q.merge f)).errors := ih (q.merge f)

theorem Receives.errors_le (h : q.Receives sort m) : q.errors ≤ m.errors := by
  induction h with
  | refl => exact Nat.le_refl _
  | add _ _ ih => exact Nat.le_trans ih (errors_le_errors_add _ _)
  | merge _ _ ih _ => exact Nat.le_trans ih (errors_le_merge _ _)

theorem Receives.tallied (h : q.Receives sort m) (hq : q.Tallied) : m.Tallied := by
  induction h with
  | refl => exact hq
  | add _ _ ih => exact (ih hq).add _
  | merge _ _ ih _ => exact (ih hq).merge _

theorem Receives.arises (h : q.Receives sort m) (hq : q.Arises) : m.Arises := by
  induction h with
  | refl => exact hq
  | add _ _ ih => exact .add (ih hq) _
  | merge _ _ ih ihfilled => exact .merge (ih hq) (ihfilled (.empty _))

theorem Tallied.errors_pos (h : q.Tallied) (hd : d ∈ q.kept) (herror : d.isError = true) :
    0 < q.errors := by
  have hcount : 0 < q.kept.countP (·.isError) := List.countP_pos_iff.mpr ⟨d, hd, herror⟩
  have herrors := h.errors
  omega

/-- An error that is refused as a duplicate has been kept before, and one past the limit counts. -/
theorem Tallied.errors_add_pos (h : q.Tallied) (herror : d.isError = true) :
    0 < (q.add d).errors := by
  rcases q.add_cases d with ⟨hseen, hadd⟩ | ⟨-, -, -, hadd⟩ | ⟨-, -, hadd⟩
  · obtain ⟨hdedup, hmem⟩ := seen_iff.mp hseen
    rw [hadd]
    exact h.errors_pos ((h.remembered hdedup d).mp hmem) herror
  · rw [hadd]
    exact Nat.succ_pos _
  · rw [hadd, herror]
    exact Nat.succ_pos _

theorem Tallied.errors_addAll_pos (h : q.Tallied) (hd : d ∈ ds) (herror : d.isError = true) :
    0 < (q.addAll ds).errors := by
  induction ds generalizing q with
  | nil => exact absurd hd List.not_mem_nil
  | cons a ds ih =>
    rcases List.mem_cons.mp hd with rfl | hd
    · exact Nat.lt_of_lt_of_le (h.errors_add_pos herror) (errors_le_addAll _ ds)
    · exact ih (h.add a) hd

/-- What a queue has counted is counted where it is merged, kept or not. -/
theorem Tallied.errors_merge_pos (h : q.Tallied) (hf : f.Tallied) (hpos : 0 < f.errors) :
    0 < (q.merge f).errors := by
  have hbooks := hf.errors
  change 0 < (q.addAll f.kept).errors + f.dropped
  rcases Nat.eq_zero_or_pos f.dropped with hzero | hdropped
  · have hkept : 0 < f.kept.countP (·.isError) := by omega
    obtain ⟨d, hd, herror⟩ := List.countP_pos_iff.mp hkept
    have hcounted := h.errors_addAll_pos hd herror
    omega
  · omega

theorem errors_add (hseen : q.seen d = false) : (q.add d).errors = q.errors + d.isError.toNat := by
  rcases q.add_cases d with ⟨hdup, -⟩ | ⟨-, herror, -, hadd⟩ | ⟨-, -, hadd⟩
  · rw [hseen] at hdup
    contradiction
  · rw [hadd, herror]
    rfl
  · rw [hadd]
    rfl

theorem errors_add_of_not_error (hd : d.isError = false) : (q.add d).errors = q.errors := by
  cases hseen : q.seen d with
  | true =>
    rcases q.add_cases d with ⟨-, hadd⟩ | ⟨hnew, -⟩ | ⟨hnew, -⟩
    · rw [hadd]
    · rw [hseen] at hnew
      contradiction
    · rw [hseen] at hnew
      contradiction
  | false =>
    rw [errors_add hseen, hd]
    rfl

theorem errors_addAll_of_not_errors (hds : ∀ d ∈ ds, d.isError = false) :
    (q.addAll ds).errors = q.errors := by
  induction ds generalizing q with
  | nil => rfl
  | cons d ds ih =>
    obtain ⟨hd, hds⟩ := List.forall_mem_cons.mp hds
    calc ((q.add d).addAll ds).errors = (q.add d).errors := ih hds
      _ = q.errors := errors_add_of_not_error hd

/-- Where no error is received, none is counted. -/
theorem Receives.errors_eq (h : q.Receives (fun d => d.isError = false) m) : m.errors = q.errors := by
  induction h with
  | refl => rfl
  | add _ hd ih => exact (errors_add_of_not_error hd).trans ih
  | merge _ hfilled ih ihfilled =>
    rename_i q later filled config _
    have hkept : ∀ d ∈ filled.kept, d.isError = false := fun d hd =>
      (hfilled.mem_kept hd).resolve_left List.not_mem_nil
    have hnone : filled.dropped = 0 := by
      have hbooks := (hfilled.tallied (tallied_empty config)).errors
      have hzero : filled.errors = 0 := ihfilled
      omega
    calc (later.addAll filled.kept).errors + filled.dropped
        = (later.addAll filled.kept).errors := by rw [hnone, Nat.add_zero]
      _ = later.errors := errors_addAll_of_not_errors hkept
      _ = q.errors := ih

/-- A report of errors changes the count unless the queue takes all of them for duplicates. -/
theorem errors_addAll_eq_iff (hds : ∀ d ∈ ds, d.isError = true) :
    (q.addAll ds).errors = q.errors ↔ ∀ d ∈ ds, q.seen d = true := by
  induction ds with
  | nil => exact ⟨fun _ _ hd => absurd hd List.not_mem_nil, fun _ => rfl⟩
  | cons d ds ih =>
    obtain ⟨herror, hds⟩ := List.forall_mem_cons.mp hds
    rw [List.forall_mem_cons]
    change ((q.add d).addAll ds).errors = q.errors ↔ _
    cases hseen : q.seen d with
    | true =>
      have hsame : q.add d = q := by
        unfold add offer
        rw [hseen]
        rfl
      rw [hsame, ih hds]
      exact ⟨fun h => ⟨rfl, h⟩, fun h => h.2⟩
    | false =>
      have hcounted : (q.add d).errors = q.errors + 1 := by
        rw [errors_add hseen, herror]
        rfl
      have hgrown := errors_le_addAll (q.add d) ds
      constructor
      · intro h
        omega
      · intro h
        exact absurd h.1 Bool.false_ne_true

end Queue

namespace Linker

variable {q : Queue} {d : Diagnostic} {ds : List Diagnostic} {reports : List (List Diagnostic)}

theorem errors_reportInTurn_pos (h : q.Tallied) (hds : ds ∈ reports) (hd : d ∈ ds)
    (herror : d.isError = true) : 0 < (reportInTurn q reports).errors := by
  have hflat : reportInTurn q reports = q.addAll reports.flatten := List.foldl_flatten.symm
  rw [hflat]
  exact h.errors_addAll_pos (List.mem_flatten.mpr ⟨ds, hds, hd⟩) herror

theorem errors_reportMerged_pos (h : q.Tallied) (hds : ds ∈ reports) (hd : d ∈ ds)
    (herror : d.isError = true) : 0 < (reportMerged q reports).errors := by
  -- the forks are empty queues of one configuration, which does not matter
  have hforks (config : QueueConfig) : 0 <
      ((reports.map fun ds => (Queue.empty config).addAll ds).foldl Queue.merge q).errors := by
    induction reports generalizing q with
    | nil => exact absurd hds List.not_mem_nil
    | cons first reports ih =>
      rw [List.map_cons, List.foldl_cons]
      rcases List.mem_cons.mp hds with rfl | hds
      · have hempty := Queue.tallied_empty config
        have hmerged := h.errors_merge_pos (hempty.addAll ds) (hempty.errors_addAll_pos hd herror)
        exact Nat.lt_of_lt_of_le hmerged (Queue.errors_le_foldl_merge _ _)
      · exact ih (h.merge _) hds
  exact hforks q.config

end Linker

end EffectLink
