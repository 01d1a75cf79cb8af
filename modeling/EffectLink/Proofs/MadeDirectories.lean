import EffectLink.Proofs.PathParents

/-! Making a directory again comes to the same as the first time: a directory that is there or can
be made has its parent there, and what was made before a failure stays. -/

namespace EffectLink

namespace Disk

variable {d made later : Disk} {path parent : String} {place start : Place} {names more : List String}

theorem isDirectory_iff : d.isDirectory path = true ↔
    ∃ place, d.locate path = .ok place ∧ d.get? place = some .directory := by
  unfold isDirectory
  cases d.locate path with
  | error fault => simp
  | ok place => simp

theorem locate_ok : d.locate path = .ok place ↔
    checkPath path = .ok () ∧ d.follow (d.origin path) (Path.names path) = .ok place := by
  unfold locate
  rw [bind_eq_ok]
  constructor
  · rintro ⟨_, hpath, hfollow⟩
    exact ⟨hpath, hfollow⟩
  · rintro ⟨hpath, hfollow⟩
    exact ⟨(), hpath, hfollow⟩

theorem follow_append_iff : d.follow start (names ++ more) = .ok place ↔
    ∃ middle, d.follow start names = .ok middle ∧ d.follow middle more = .ok place := by
  unfold follow
  rw [List.foldlM_append, bind_eq_ok]

theorem follow_cons_iff {name : String} : d.follow start (name :: names) = .ok place ↔
    ∃ next, d.step start name = .ok next ∧ d.follow next names = .ok place := by
  unfold follow
  rw [List.foldlM_cons, bind_eq_ok]

theorem directory_of_step {name : String} (h : d.step start name = .ok place) :
    d.get? start = some .directory := by
  obtain ⟨_, hdirectory, -⟩ := bind_eq_ok.mp h
  exact requireDirectory_ok.mp hdirectory

/-- Names are followed through directories. -/
theorem directory_of_follow (h : d.follow start names = .ok place)
    (hplace : d.get? place = some .directory) : d.get? start = some .directory := by
  cases names with
  | nil =>
    cases h
    exact hplace
  | cons name rest =>
    obtain ⟨next, hstep, -⟩ := follow_cons_iff.mp h
    exact directory_of_step hstep

theorem step_blank_iff : d.step start "" = .ok place ↔
    d.get? start = some .directory ∧ place = start := by
  constructor
  · intro h
    refine ⟨directory_of_step h, ?_⟩
    obtain ⟨_, -, h⟩ := bind_eq_ok.mp h
    cases h
    rfl
  · rintro ⟨hdirectory, rfl⟩
    exact bind_eq_ok.mpr ⟨(), requireDirectory_ok.mpr hdirectory, rfl⟩

/-- Empty names lead nowhere. -/
theorem follow_blanks (hnames : ∀ name ∈ names, name = "") (hstart : d.get? start = some .directory) :
    d.follow start names = .ok start := by
  induction names with
  | nil => rfl
  | cons name rest ih =>
    obtain ⟨rfl, hrest⟩ := List.forall_mem_cons.mp hnames
    exact follow_cons_iff.mpr ⟨start, step_blank_iff.mpr ⟨hstart, rfl⟩, ih hrest⟩

/-- What making one directory has found: the directory that holds the last name of the path, which is
free. -/
theorem makeDirectory_ok (h : d.makeDirectory path = .ok made) :
    checkPath path = .ok () ∧ ∃ before last blanks parent,
      Path.names path = before ++ last :: blanks ∧ (∀ name ∈ blanks, name = "") ∧
      d.follow (d.origin path) before = .ok parent ∧ d.get? parent = some .directory ∧
      last.utf8ByteSize ≤ longestName ∧ isDots last = false ∧ d.get? (parent ++ [last]) = none ∧
      made = d.put (parent ++ [last]) .directory := by
  unfold makeDirectory at h
  obtain ⟨_, hpath, h⟩ := bind_eq_ok.mp h
  refine ⟨hpath, ?_⟩
  dsimp only at h
  rcases rdropWhile_cases (· == "") (Path.names path) with
    ⟨hnone, -⟩ | ⟨before, last, blanks, hown, hnames, -, hblanks⟩
  · rw [show ((Path.names path).reverse.dropWhile (· == "")).reverse = [] from hnone] at h
    contradiction
  · rw [show ((Path.names path).reverse.dropWhile (· == "")).reverse = before ++ [last] from hown,
      List.getLast?_concat] at h
    dsimp only at h
    obtain ⟨parent, hparent, h⟩ := bind_eq_ok.mp h
    obtain ⟨hfollow, hdirectory, hlength⟩ := directoryOf_ok.mp hparent
    rw [List.dropLast_concat] at hfollow
    split at h
    · contradiction
    · next hfree =>
      cases h
      rw [Bool.or_eq_true, not_or] at hfree
      obtain ⟨hname, hnode⟩ := hfree
      exact ⟨before, last, blanks, parent, hnames, fun name hname => beq_iff_eq.mp (hblanks name hname),
        hfollow, hdirectory, hlength, Bool.eq_false_iff.mpr hname,
        Option.not_isSome_iff_eq_none.mp hnode, rfl⟩

/-- A directory that is there is not made again. -/
theorem makeDirectory_of_isDirectory (h : d.isDirectory path = true) :
    d.makeDirectory path = .error .taken := by
  obtain ⟨place, hlocate, hplace⟩ := isDirectory_iff.mp h
  obtain ⟨hpath, hfollow⟩ := locate_ok.mp hlocate
  unfold makeDirectory
  rw [hpath]
  dsimp only [bind, Except.bind]
  rcases rdropWhile_cases (· == "") (Path.names path) with
    ⟨hnone, -⟩ | ⟨before, last, blanks, hown, hnames, -, -⟩
  · rw [show ((Path.names path).reverse.dropWhile (· == "")).reverse = [] from hnone]
    rfl
  · rw [show ((Path.names path).reverse.dropWhile (· == "")).reverse = before ++ [last] from hown,
      List.getLast?_concat]
    rw [hnames] at hfollow
    obtain ⟨parent, hparent, hlast⟩ := follow_append_iff.mp hfollow
    obtain ⟨next, hstep, -⟩ := follow_cons_iff.mp hlast
    have hdirectory := directory_of_step hstep
    have htaken : (isDots last || (d.get? (parent ++ [last])).isSome) = true ∧
        last.utf8ByteSize ≤ longestName := by
      by_cases hdots : isDots last = true
      · rw [hdots]
        refine ⟨rfl, ?_⟩
        rcases isDots_iff.mp hdots with rfl | rfl | rfl <;> decide
      · obtain ⟨-, hlength, hnode, -⟩ := (step_ok_iff (Bool.eq_false_iff.mpr hdots)).mp hstep
        rw [hnode, Bool.or_true]
        exact ⟨rfl, hlength⟩
    have hfound : d.directoryOf (d.origin path) (before ++ [last]) last = .ok parent := by
      refine directoryOf_ok.mpr ⟨?_, hdirectory, htaken.2⟩
      rw [List.dropLast_concat]
      exact hparent
    dsimp only
    rw [hfound]
    dsimp only
    rw [if_pos htaken.1]

theorem isDirectory_of_makeDirectory (h : d.makeDirectory path = .ok made) :
    made.isDirectory path = true := by
  have hgrows := (addsDirectories_makeDirectory h).grows
  obtain ⟨hpath, before, last, blanks, parent, hnames, hblanks, hfollow, hdirectory, hlength, hname, -,
    rfl⟩ := makeDirectory_ok h
  have hplace : parent ++ [last] ≠ [] :=
    List.append_ne_nil_of_right_ne_nil _ (List.cons_ne_nil _ _)
  have hmade : (d.put (parent ++ [last]) .directory).get? (parent ++ [last]) = some .directory :=
    get?_put_self d hplace _
  refine isDirectory_iff.mpr ⟨parent ++ [last], locate_ok.mpr ⟨hpath, ?_⟩, hmade⟩
  rw [hgrows.origin, hnames]
  refine follow_append_iff.mpr ⟨parent, hgrows.follow hfollow, ?_⟩
  refine follow_cons_iff.mpr ⟨_, (step_ok_iff hname).mpr ?_, follow_blanks hblanks hmade⟩
  exact ⟨hgrows.directories parent hdirectory, hlength, by rw [hmade]; rfl, rfl⟩

theorem checkPath_ok : checkPath path = .ok () ↔
    '\x00' ∉ path.toList ∧ path ≠ "" ∧ path.utf8ByteSize ≤ longestPath := by
  unfold checkPath
  by_cases hzero : path.toList.contains '\x00' = true
  · rw [if_pos hzero]
    simp [List.contains_iff_mem.mp hzero]
  · rw [if_neg hzero]
    by_cases hempty : path.isEmpty = true
    · rw [if_pos hempty]
      simp [String.isEmpty_iff.mp hempty]
    · rw [if_neg hempty]
      have hne : path ≠ "" := fun h => hempty (String.isEmpty_iff.mpr h)
      have hfree : '\x00' ∉ path.toList := fun h => hzero (List.contains_iff_mem.mpr h)
      by_cases hlong : longestPath < path.utf8ByteSize
      · rw [if_pos hlong]
        simp [Nat.not_le_of_lt hlong]
      · rw [if_neg hlong]
        simp [hne, hfree, Nat.le_of_not_lt hlong]

/-- A path that leads through the names of a parent to a directory. -/
theorem isDirectory_above (habove : Path.Above parent path) (hne : parent ≠ "")
    (hpath : checkPath path = .ok ())
    (hfollow : d.follow (d.origin path) (Path.names parent ++ more) = .ok place)
    (hplace : d.get? place = some .directory) : d.isDirectory parent = true := by
  obtain ⟨rest, rfl, -⟩ := habove
  obtain ⟨hzero, -, hlength⟩ := checkPath_ok.mp hpath
  have hparent : checkPath parent = .ok () := by
    refine checkPath_ok.mpr ⟨fun hmem => hzero ?_, hne, ?_⟩
    · rw [String.toList_append, String.toList_append, List.append_assoc]
      exact List.mem_append_left _ hmem
    · rw [String.utf8ByteSize_append, String.utf8ByteSize_append] at hlength
      omega
  have horigin : d.origin (parent ++ "/" ++ rest) = d.origin parent := by
    have htext : parent.toList ≠ [] := fun h => hne (String.toList_eq_nil_iff.mp h)
    unfold origin Path.isAbsolute
    rw [String.append_assoc, String.toList_append, List.head?_append_of_ne_nil _ htext]
  rw [horigin] at hfollow
  obtain ⟨middle, hmiddle, hrest⟩ := follow_append_iff.mp hfollow
  exact isDirectory_iff.mpr
    ⟨middle, locate_ok.mpr ⟨hparent, hmiddle⟩, directory_of_follow hrest hplace⟩

/-- The parent of a directory that is there, or that can be made, is there. -/
theorem isDirectory_parent (hparent : Path.parent? path = some parent) (hne : parent ≠ "")
    (h : d.isDirectory path = true ∨ ∃ made, d.makeDirectory path = .ok made) :
    d.isDirectory parent = true := by
  obtain ⟨-, hempty | rfl | habove⟩ := Path.parent?_cases hparent
  · exact absurd hempty hne
  · exact isDirectory_iff.mpr ⟨[], rfl, rfl⟩
  · rcases h with h | ⟨made, h⟩
    · obtain ⟨place, hlocate, -⟩ := isDirectory_iff.mp h
      obtain ⟨hpath, hfollow⟩ := locate_ok.mp hlocate
      have hnames := Path.names_eq_concat path
      rw [hnames] at hfollow
      obtain ⟨above, hfollow, hstep⟩ := follow_append.mp hfollow
      obtain ⟨more, hbefore⟩ := habove.before_eq hnames fun _ hnil => absurd hnil List.not_mem_nil
      rw [hbefore] at hfollow
      exact isDirectory_above habove hne hpath hfollow (directory_of_step hstep)
    · obtain ⟨hpath, before, last, blanks, above, hnames, hblanks, hfollow, hdirectory, -⟩ :=
        makeDirectory_ok h
      obtain ⟨more, rfl⟩ := habove.before_eq hnames hblanks
      exact isDirectory_above habove hne hpath hfollow hdirectory

theorem ensureDirectory_cases (d : Disk) (path : String) :
    (∃ made, d.makeDirectory path = .ok made ∧ d.ensureDirectory path = (made, .ok ())) ∨
    (d.isDirectory path = true ∧ d.ensureDirectory path = (d, .ok ())) ∨
    (d.isDirectory path = false ∧ ∃ fault, d.makeDirectory path = .error fault ∧
      d.ensureDirectory path = (d, .error fault)) := by
  unfold ensureDirectory
  cases d.makeDirectory path with
  | ok made => exact Or.inl ⟨made, rfl, rfl⟩
  | error fault =>
    cases d.isDirectory path with
    | true => exact Or.inr (Or.inl ⟨rfl, rfl⟩)
    | false => exact Or.inr (Or.inr ⟨rfl, fault, rfl, rfl⟩)

/-- What making a directory can come to: there is nothing to make, the directories above are made first,
or none of them is needed. -/
theorem makeWithin_cases (fuel : Nat) (d : Disk) {path : String} (hne : path ≠ "") :
    (∃ parent, d.makeDirectory path = .error .notFound ∧ Path.parent? path = some parent ∧
      ((∃ above, makeWithin fuel d parent = (above, .ok ()) ∧
        makeWithin (fuel + 1) d path = above.ensureDirectory path) ∨
      (∃ above fault, makeWithin fuel d parent = (above, .error fault) ∧
        makeWithin (fuel + 1) d path = (above, .error fault)))) ∨
    (¬(d.makeDirectory path = .error .notFound ∧ ∃ parent, Path.parent? path = some parent) ∧
      makeWithin (fuel + 1) d path = d.ensureDirectory path) := by
  generalize hfinal : makeWithin (fuel + 1) d path = final
  rw [makeWithin, if_neg hne] at hfinal
  split at hfinal
  · next parent hmissing hparent =>
    refine Or.inl ⟨parent, hmissing, hparent, ?_⟩
    rcases habove : makeWithin fuel d parent with ⟨above, outcome⟩
    rw [habove] at hfinal
    cases outcome with
    | ok _ => exact Or.inl ⟨above, rfl, hfinal.symm⟩
    | error fault => exact Or.inr ⟨above, fault, rfl, hfinal.symm⟩
  · next hother =>
    refine Or.inr ⟨?_, hfinal.symm⟩
    rintro ⟨hmissing, parent, hparent⟩
    exact hother parent hmissing hparent

/-- A directory, given by its path, that files can be written below; the empty path is the working
directory. -/
def Ready (d : Disk) (directory : String) : Prop := directory = "" ∨ d.isDirectory directory = true

theorem Ready.grows (h : d.Ready path) (hgrows : d.Grows later) : later.Ready path := by
  refine h.imp_right fun hdirectory => ?_
  obtain ⟨place, hlocate, hplace⟩ := isDirectory_iff.mp hdirectory
  exact isDirectory_iff.mpr ⟨place, hgrows.locate hlocate, hgrows.directories place hplace⟩

theorem Ready.write {contents : Bytes} (h : d.Ready parent) (hwritten : d.write path contents = .ok later) :
    later.Ready parent := by
  obtain ⟨place, hplace, hfree, rfl, -⟩ := write_ok hwritten
  exact h.grows (grows_put_file hplace hfree contents)

theorem makeWithin_of_ready (h : d.Ready path) (fuel : Nat) :
    makeWithin (fuel + 1) d path = (d, .ok ()) := by
  by_cases hne : path = ""
  · rw [makeWithin, if_pos hne]
  · have hdirectory := h.resolve_left hne
    have htaken := makeDirectory_of_isDirectory hdirectory
    rcases makeWithin_cases fuel d hne with ⟨parent, hmissing, -⟩ | ⟨-, hmade⟩
    · rw [htaken] at hmissing
      contradiction
    · rw [hmade, ensureDirectory, htaken, hdirectory]
      rfl

theorem ready_of_ensureDirectory (h : d.ensureDirectory path = (made, .ok ())) : made.Ready path := by
  rcases d.ensureDirectory_cases path with
    ⟨made', hmade, hresult⟩ | ⟨hdirectory, hresult⟩ | ⟨-, fault, -, hresult⟩
  · rw [hresult] at h
    cases h
    exact Or.inr (isDirectory_of_makeDirectory hmade)
  · rw [hresult] at h
    cases h
    exact Or.inr hdirectory
  · rw [hresult] at h
    cases h

theorem ensureDirectory_error {fault : FileError}
    (h : d.ensureDirectory path = (made, .error fault)) : made = d := by
  rcases d.ensureDirectory_cases path with
    ⟨made', -, hresult⟩ | ⟨-, hresult⟩ | ⟨-, fault', -, hresult⟩
  · rw [hresult] at h
    cases h
  · rw [hresult] at h
    cases h
  · rw [hresult] at h
    cases h
    rfl

theorem ready_of_makeWithin {fuel : Nat} (h : makeWithin fuel d path = (made, .ok ())) :
    made.Ready path := by
  cases fuel with
  | zero => cases h
  | succ fuel =>
    by_cases hne : path = ""
    · exact Or.inl hne
    · rcases makeWithin_cases fuel d hne with
        ⟨parent, -, -, ⟨above, -, hresult⟩ | ⟨above, fault, -, hresult⟩⟩ | ⟨-, hresult⟩
      · exact ready_of_ensureDirectory (hresult.symm.trans h)
      · rw [hresult] at h
        cases h
      · exact ready_of_ensureDirectory (hresult.symm.trans h)

/-- If a parent is not there then the directory is neither there nor can it be made. -/
theorem ensureDirectory_of_not_ready (hparent : Path.parent? path = some parent)
    (h : ¬d.Ready parent) : ∃ fault, d.ensureDirectory path = (d, .error fault) := by
  have hne : parent ≠ "" := fun hempty => h (Or.inl hempty)
  rcases d.ensureDirectory_cases path with
    ⟨made, hmade, -⟩ | ⟨hdirectory, -⟩ | ⟨-, fault, -, hresult⟩
  · exact absurd (Or.inr (isDirectory_parent hparent hne (Or.inr ⟨made, hmade⟩))) h
  · exact absurd (Or.inr (isDirectory_parent hparent hne (Or.inl hdirectory))) h
  · exact ⟨fault, hresult⟩

/-- With its parent there, a directory that is not made directly is not made at all. -/
theorem makeWithin_of_ready_parent (hne : path ≠ "") (hparent : Path.parent? path = some parent)
    (hready : d.Ready parent) {fault : FileError} (h : d.ensureDirectory path = (d, .error fault))
    (fuel : Nat) : ∃ again, makeWithin fuel d path = (d, .error again) := by
  cases fuel with
  | zero => exact ⟨_, rfl⟩
  | succ fuel =>
    rcases makeWithin_cases fuel d hne with
      ⟨parent', -, hparent', ⟨above, habove, hresult⟩ | ⟨above, fault', habove, hresult⟩⟩ | ⟨-, hresult⟩
    · cases hparent.symm.trans hparent'
      cases fuel with
      | zero => cases habove
      | succ fuel =>
        rw [makeWithin_of_ready hready] at habove
        cases habove
        exact ⟨fault, hresult.trans h⟩
    · cases hparent.symm.trans hparent'
      cases fuel with
      | zero =>
        cases habove
        exact ⟨_, hresult⟩
      | succ fuel =>
        rw [makeWithin_of_ready hready] at habove
        cases habove
    · exact ⟨fault, hresult.trans h⟩

/-- With a parent that cannot be made, a directory is not made either. -/
theorem makeWithin_of_stuck_parent (hne : path ≠ "") (hparent : Path.parent? path = some parent)
    (hstuck : ∀ fuel, ∃ fault, makeWithin fuel d parent = (d, .error fault)) (fuel : Nat) :
    ∃ fault, makeWithin fuel d path = (d, .error fault) := by
  have hmissing : ¬d.Ready parent := by
    intro hready
    obtain ⟨fault, hfailed⟩ := hstuck 1
    rw [makeWithin_of_ready hready] at hfailed
    cases hfailed
  cases fuel with
  | zero => exact ⟨_, rfl⟩
  | succ fuel =>
    obtain ⟨fault, hfailed⟩ := hstuck fuel
    rcases makeWithin_cases fuel d hne with
      ⟨parent', -, hparent', ⟨above, habove, -⟩ | ⟨above, fault', habove, hresult⟩⟩ | ⟨-, hresult⟩
    · cases hparent.symm.trans hparent'
      rw [hfailed] at habove
      cases habove
    · cases hparent.symm.trans hparent'
      rw [hfailed] at habove
      cases habove
      exact ⟨fault, hresult⟩
    · rw [hresult]
      exact ensureDirectory_of_not_ready hparent hmissing

/-- A directory that could not be made cannot be made from what was made on the way either. The induction
is on the fuel, which is enough for the characters of the path. -/
theorem makeWithin_again {fuel : Nat} (hfuel : path.length < fuel) {fault : FileError}
    (h : makeWithin fuel d path = (made, .error fault)) (more : Nat) :
    ∃ again, makeWithin more made path = (made, .error again) := by
  induction fuel generalizing path fault more with
  | zero => omega
  | succ fuel ih =>
    have hne : path ≠ "" := by
      rintro rfl
      rw [makeWithin_of_ready (Or.inl rfl)] at h
      cases h
    rcases makeWithin_cases fuel d hne with
      ⟨parent, -, hparent, ⟨above, habove, hresult⟩ | ⟨above, fault', habove, hresult⟩⟩ |
        ⟨hdirect, hresult⟩
    · -- the directories above were made, so this time they are there
      rw [hresult] at h
      obtain rfl := ensureDirectory_error h
      exact makeWithin_of_ready_parent hne hparent (ready_of_makeWithin habove) h more
    · -- one of the directories above could not be made, and cannot be made now
      rw [hresult] at h
      cases h
      have hshorter := (Path.parent?_cases hparent).1
      exact makeWithin_of_stuck_parent hne hparent (ih (by omega) habove) more
    · -- nothing was made on the way, so the disk is the one of the first attempt
      rw [hresult] at h
      obtain rfl := ensureDirectory_error h
      cases more with
      | zero => exact ⟨_, rfl⟩
      | succ more =>
        rcases makeWithin_cases more made hne with ⟨parent, hmissing, hparent, -⟩ | ⟨-, hagain⟩
        · exact absurd ⟨hmissing, parent, hparent⟩ hdirect
        · exact ⟨fault, hagain.trans h⟩

/-- Whatever is on the disk is in a directory. -/
def Rooted (d : Disk) : Prop :=
  ∀ place name, (d.get? (place ++ [name])).isSome = true → d.get? place = some .directory

theorem Rooted.put (h : d.Rooted) {last : String} (hplace : d.get? place = some .directory)
    (hfree : d.get? (place ++ [last]) ≠ some .directory) (node : Node) :
    (d.put (place ++ [last]) node).Rooted := by
  have hne : place ++ [last] ≠ [] := List.append_ne_nil_of_right_ne_nil _ (List.cons_ne_nil _ _)
  intro above name hnode
  by_cases hnew : above ++ [name] = place ++ [last]
  · obtain ⟨rfl, -⟩ := List.append_inj' hnew rfl
    rw [get?_put_of_ne d hne node fun heq => ?_]
    · exact hplace
    · exact absurd (congrArg List.length heq) (by simp)
  · rw [get?_put_of_ne d hne node hnew] at hnode
    have habove := h above name hnode
    -- the new node was no directory, so nothing is in it
    rw [get?_put_of_ne d hne node fun heq => hfree (heq ▸ habove)]
    exact habove

theorem Rooted.makeDirectory (h : d.Rooted) (hmade : d.makeDirectory path = .ok made) :
    made.Rooted := by
  obtain ⟨-, before, last, blanks, parent, -, -, -, hdirectory, -, -, hnone, rfl⟩ :=
    makeDirectory_ok hmade
  refine h.put hdirectory ?_ _
  rw [hnone]
  exact fun hsome => by cases hsome

theorem Rooted.ensureDirectory (h : d.Rooted) (path : String) : (d.ensureDirectory path).1.Rooted := by
  rcases d.ensureDirectory_cases path with
    ⟨made, hmade, hresult⟩ | ⟨-, hresult⟩ | ⟨-, fault, -, hresult⟩
  · rw [hresult]
    exact h.makeDirectory hmade
  · rw [hresult]
    exact h
  · rw [hresult]
    exact h

theorem Rooted.makeWithin (h : d.Rooted) (fuel : Nat) (path : String) :
    (makeWithin fuel d path).1.Rooted := by
  induction fuel generalizing path with
  | zero => exact h
  | succ fuel ih =>
    by_cases hne : path = ""
    · rw [makeWithin_of_ready (Or.inl hne)]
      exact h
    · rcases makeWithin_cases fuel d hne with
        ⟨parent, -, -, ⟨above, habove, hresult⟩ | ⟨above, fault, habove, hresult⟩⟩ | ⟨-, hresult⟩
      · have hrooted := ih parent
        rw [habove] at hrooted
        rw [hresult]
        exact hrooted.ensureDirectory path
      · have hrooted := ih parent
        rw [habove] at hrooted
        rw [hresult]
        exact hrooted
      · rw [hresult]
        exact h.ensureDirectory path

theorem Rooted.write (h : d.Rooted) {contents : Bytes} (hwritten : d.write path contents = .ok later) :
    later.Rooted := by
  obtain ⟨-, parent, -, hdirectory, -, -, hfree, rfl⟩ := write_ok_iff.mp hwritten
  exact h.put hdirectory hfree _

/-- The disk once a directory has been made, or as much of it as could be made. -/
def opened (d : Disk) (directory : String) : Disk := (d.makeDirectories directory).1

theorem makeDirectories_cases (d : Disk) (directory : String) :
    (d.makeDirectories directory = (d.opened directory, .ok ()) ∧
      (d.opened directory).Ready directory) ∨
    (∃ fault, d.makeDirectories directory = (d.opened directory, .error fault) ∧
      ¬(d.opened directory).Ready directory) := by
  unfold opened
  rcases hmade : d.makeDirectories directory with ⟨made, outcome⟩
  cases outcome with
  | ok _ => exact Or.inl ⟨rfl, ready_of_makeWithin hmade⟩
  | error fault =>
    refine Or.inr ⟨fault, rfl, fun hready => ?_⟩
    obtain ⟨again, hfailed⟩ := makeWithin_again (Nat.lt_succ_self _) hmade 1
    rw [makeWithin_of_ready hready] at hfailed
    cases hfailed

theorem opened_of_ready {directory : String} (h : d.Ready directory) : d.opened directory = d := by
  unfold opened makeDirectories
  rw [makeWithin_of_ready h]

/-- A second attempt changes nothing. -/
theorem opened_opened (d : Disk) (directory : String) :
    (d.opened directory).opened directory = d.opened directory := by
  rcases d.makeDirectories_cases directory with ⟨-, hready⟩ | ⟨fault, hmade, -⟩
  · exact opened_of_ready hready
  · obtain ⟨again, hfailed⟩ := makeWithin_again (Nat.lt_succ_self _) hmade (directory.length + 1)
    change (makeWithin (directory.length + 1) (d.opened directory) directory).1 = _
    rw [hfailed]

theorem addsDirectories_opened (d : Disk) (directory : String) :
    d.AddsDirectories (d.opened directory) :=
  addsDirectories_makeDirectories d directory

theorem grows_opened (d : Disk) (directory : String) : d.Grows (d.opened directory) :=
  (addsDirectories_opened d directory).grows

/-- What a write below a directory can come to: the directory cannot be made, or it is there and the file
is written or not. -/
theorem writeBelow_opened (d : Disk) (directory path : String) (contents : Bytes) :
    (¬(d.opened directory).Ready directory ∧
      ∃ fault, d.writeBelow directory path contents = (d.opened directory, .error fault)) ∨
    ((d.opened directory).Ready directory ∧
      ((∃ later, (d.opened directory).write path contents = .ok later ∧
        d.writeBelow directory path contents = (later, .ok ())) ∨
      (∃ fault, (d.opened directory).write path contents = .error fault ∧
        d.writeBelow directory path contents = (d.opened directory, .error fault)))) := by
  unfold writeBelow
  rcases d.makeDirectories_cases directory with ⟨hmade, hready⟩ | ⟨fault, hmade, hready⟩
  · rw [hmade]
    refine Or.inr ⟨hready, ?_⟩
    dsimp only
    cases hwritten : (d.opened directory).write path contents with
    | ok later => exact Or.inl ⟨later, rfl, rfl⟩
    | error fault => exact Or.inr ⟨fault, rfl, rfl⟩
  · rw [hmade]
    exact Or.inl ⟨hready, fault, rfl⟩

/-- After an attempt to write a file, the directory is as far as it can be made. -/
theorem opened_writeBelow (d : Disk) (directory path : String) (contents : Bytes) :
    (d.writeBelow directory path contents).1.opened directory =
      (d.writeBelow directory path contents).1 := by
  rcases d.writeBelow_opened directory path contents with
    ⟨-, fault, hresult⟩ | ⟨hready, ⟨later, hwritten, hresult⟩ | ⟨fault, -, hresult⟩⟩
  · rw [hresult]
    exact opened_opened d directory
  · rw [hresult]
    exact opened_of_ready (hready.write hwritten)
  · rw [hresult]
    exact opened_of_ready hready

theorem ready_of_written {directory : String} {contents : Bytes}
    (h : d.writeBelow directory path contents = (later, .ok ())) : later.Ready directory := by
  rcases d.writeBelow_opened directory path contents with
    ⟨-, fault, hresult⟩ | ⟨hready, ⟨written, hwritten, hresult⟩ | ⟨fault, -, hresult⟩⟩
  · rw [hresult] at h
    cases h
  · rw [hresult] at h
    cases h
    exact hready.write hwritten
  · rw [hresult] at h
    cases h

theorem Rooted.store (h : d.Rooted) (directory : String) (file : String × Bytes) :
    (d.store directory file).Rooted := by
  have hopened : (d.opened directory).Rooted := h.makeWithin _ directory
  unfold Disk.store
  rcases d.writeBelow_opened directory file.1 file.2 with
    ⟨-, fault, hresult⟩ | ⟨-, ⟨later, hwritten, hresult⟩ | ⟨fault, -, hresult⟩⟩
  · rw [hresult]
    exact hopened
  · rw [hresult]
    exact hopened.write hwritten
  · rw [hresult]
    exact hopened

theorem Rooted.storeAll (h : d.Rooted) (directory : String) (files : List (String × Bytes)) :
    (d.storeAll directory files).Rooted := by
  induction files generalizing d with
  | nil => exact h
  | cons file rest ih => exact ih (h.store directory file)

end Disk

end EffectLink
