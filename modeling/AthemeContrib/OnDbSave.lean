/-
# on_db_save: a command run at each save

When the database was saved, `on_db_save` opens two pipes and forks; the child
runs the command, and the parent closes the two write ends and hands the read
ends to two connections. A command still running is left to finish. Each failure
has its own amount to undo: nothing if the first pipe cannot be opened, one pipe
if the second cannot, and two if the fork fails, which is what is not done
(`forkFails_open`). One command at most runs at a time whatever fails
(`children_le_one`), and no descriptor is lost as long as no fork fails
(`clean_iff`, `accounted_iff`).

The model is of the parent. A number the kernel gives to a pipe's end or to a
child is not in use (`Possible`), and `fds₀` are the descriptors other parts of
the services have open.

Key definitions: `onDbSave`, `updateCommandFinished`, `Possible`, `step`, `Clean`,
`ForkFails`, `Stepped`, `Accounted`.
Key theorems: `step_cases`, `children_le_one`, `clean_iff`, `accounted_iff`.
-/
import AthemeContrib.Lib.CString
import AthemeContrib.Lib.Run
import Mathlib.Data.Finset.Basic

namespace AthemeContrib
namespace OnDbSave

/-- `update_command_proc`; a connection is named by its descriptor. -/
structure UpdateCommandState where
  out : Option ℕ
  err : Option ℕ
  pid : ℕ
  running : Bool
deriving DecidableEq, Repr

/-- `fds` are the open descriptors, `conns` those that belong to a connection for
the output of a command, and `children` the commands that run. -/
structure State where
  command : Option CStr
  updateCommandProc : UpdateCommandState
  fds : Finset ℕ
  conns : List ℕ
  children : List ℕ
deriving DecidableEq

/-- Before the first save. -/
def start (command : Option CStr) (fds₀ : Finset ℕ) : State := ⟨command, ⟨none, none, 0, false⟩, fds₀, [], []⟩

/-- A pipe is opened: its read end and its write end. -/
def pipe (ends : ℕ × ℕ) (fds : Finset ℕ) : Finset ℕ := insert ends.2 (insert ends.1 fds)

/-- `close(fd)` -/
def close (fd : ℕ) (fds : Finset ℕ) : Finset ℕ := fds.erase fd

/-- `on_db_save`, with what the two calls of `pipe` and the call of `fork` return, or
the `errno` they leave. -/
def onDbSave (stdoutPipes stderrPipes : Except ℕ (ℕ × ℕ)) (fork : Except ℕ ℕ) (s : State) : State :=
  match s.command with
  | none => s
  | some _ =>
    if s.updateCommandProc.running then s
    else
      match stdoutPipes with
      | .error _ => s
      | .ok stdoutPipes =>
        let fds := pipe stdoutPipes s.fds
        match stderrPipes with
        | .error _ => { s with fds := close stdoutPipes.2 (close stdoutPipes.1 fds) }
        | .ok stderrPipes =>
          let fds := pipe stderrPipes fds
          match fork with
          | .error _ => { s with fds }
          | .ok pid =>
            { s with
              fds := close stderrPipes.2 (close stdoutPipes.2 fds)
              conns := s.conns ++ [stdoutPipes.1, stderrPipes.1]
              updateCommandProc := ⟨some stdoutPipes.1, some stderrPipes.1, pid, true⟩
              children := s.children ++ [pid] }

/-- `update_command_finished`, which reads the status for its log line only. -/
def updateCommandFinished (s : State) : State :=
  { s with updateCommandProc := { s.updateCommandProc with running := false } }

/-- The database was saved, a command ended, a connection came to the end of its
file, or `db_update_command` was read. -/
inductive Event
  | dbSaved (stdoutPipes stderrPipes : Except ℕ (ℕ × ℕ)) (fork : Except ℕ ℕ)
  | childExit (pid : ℕ)
  | endOfFile (fd : ℕ)
  | config (command : Option CStr)

/-- Two descriptors not in use. -/
def Unused (fds : Finset ℕ) (ends : ℕ × ℕ) : Prop := ends.1 ∉ fds ∧ ends.2 ∉ fds ∧ ends.1 ≠ ends.2

instance (fds : Finset ℕ) (ends : ℕ × ℕ) : Decidable (Unused fds ends) :=
  inferInstanceAs (Decidable (_ ∧ _))

/-- What the kernel can return from the three calls. -/
def Possible (s : State) (stdoutPipes stderrPipes : Except ℕ (ℕ × ℕ)) (fork : Except ℕ ℕ) : Prop :=
  (∀ p ∈ stdoutPipes.toOption, Unused s.fds p ∧ ∀ q ∈ stderrPipes.toOption, Unused (pipe p s.fds) q) ∧
    ∀ pid ∈ fork.toOption, pid ∉ s.children

instance (s : State) (stdoutPipes stderrPipes : Except ℕ (ℕ × ℕ)) (fork : Except ℕ ℕ) :
    Decidable (Possible s stdoutPipes stderrPipes fork) :=
  inferInstanceAs (Decidable (_ ∧ _))

/-- A child that ends is one that runs, and `childproc_add` has its callback run;
a connection at the end of its file closes its descriptor. -/
def step (s : State) : Event → Option State
  | .dbSaved stdoutPipes stderrPipes fork =>
    if Possible s stdoutPipes stderrPipes fork then some (onDbSave stdoutPipes stderrPipes fork s) else none
  | .childExit pid =>
    if pid ∈ s.children then some (updateCommandFinished { s with children := s.children.erase pid })
    else none
  | .endOfFile fd =>
    if fd ∈ s.conns then some { s with fds := close fd s.fds, conns := s.conns.erase fd } else none
  | .config command => some { s with command }

/-- The save starts nothing, and no descriptor is opened or closed. -/
def Refused (s s' : State) : Prop := s'.children = s.children ∧ s'.fds = s.fds ∧ s'.conns = s.conns

/-- The save starts a command, and what is opened are the read ends of the two pipes,
which are handed to connections. -/
def Started (stdoutPipes stderrPipes : Except ℕ (ℕ × ℕ)) (s s' : State) : Prop :=
  ∃ p q pid, stdoutPipes = .ok p ∧ stderrPipes = .ok q ∧ s'.children = s.children ++ [pid] ∧
    s'.fds = insert q.1 (insert p.1 s.fds) ∧ s'.conns = s.conns ++ [p.1, q.1] ∧
    p.1 ∉ s.fds ∧ q.1 ∉ s.fds ∧ p.1 ≠ q.1

/-- At most one command runs, and a save opens what it hands to connections. -/
def Clean (s : State) (e : Event) (s' : State) : Prop :=
  s'.children.length ≤ 1 ∧
    match e with
    | .dbSaved stdoutPipes stderrPipes _ => Refused s s' ∨ Started stdoutPipes stderrPipes s s'
    | .childExit _ => s'.fds = s.fds
    | _ => True

/-- The fork fails: the command is set and does not run, and both pipes are open. -/
def ForkFails (s : State) : Event → Prop
  | .dbSaved (.ok _) (.ok _) (.error _) => s.command ≠ none ∧ s.updateCommandProc.running = false
  | _ => False

/-- What can become of a state: a save leaves it as it is, or opens two pipes and
fails to fork, or starts the command. -/
inductive Stepped (s : State) : Event → State → Prop
  | refused {stdoutPipes stderrPipes fork} (hok : ¬ ForkFails s (.dbSaved stdoutPipes stderrPipes fork)) :
    Stepped s (.dbSaved stdoutPipes stderrPipes fork) s
  | forkFailed {p q errno} (hp : Unused s.fds p)
    (hfail : ForkFails s (.dbSaved (.ok p) (.ok q) (.error errno))) :
    Stepped s (.dbSaved (.ok p) (.ok q) (.error errno)) { s with fds := pipe q (pipe p s.fds) }
  | started {p q pid} (hp : Unused s.fds p) (hq : Unused (pipe p s.fds) q)
    (hidle : s.updateCommandProc.running = false) :
    Stepped s (.dbSaved (.ok p) (.ok q) (.ok pid))
      { s with
        fds := insert q.1 (insert p.1 s.fds)
        conns := s.conns ++ [p.1, q.1]
        updateCommandProc := ⟨some p.1, some q.1, pid, true⟩
        children := s.children ++ [pid] }
  | childExit {pid} (hpid : pid ∈ s.children) :
    Stepped s (.childExit pid) (updateCommandFinished { s with children := s.children.erase pid })
  | endOfFile {fd} (hfd : fd ∈ s.conns) :
    Stepped s (.endOfFile fd) { s with fds := close fd s.fds, conns := s.conns.erase fd }
  | config {command} : Stepped s (.config command) { s with command }

variable {s s' : State} {e : Event} {fds fds₀ : Finset ℕ} {p q : ℕ × ℕ}
  {stdoutPipes stderrPipes : Except ℕ (ℕ × ℕ)} {fork : Except ℕ ℕ}

/-! ### What a save does -/

theorem step_dbSaved (h : Possible s stdoutPipes stderrPipes fork) :
    step s (.dbSaved stdoutPipes stderrPipes fork) = some (onDbSave stdoutPipes stderrPipes fork s) :=
  if_pos h

/-- A pipe that is closed is undone. -/
theorem close_pipe (hp : Unused fds p) : close p.2 (close p.1 (pipe p fds)) = fds := by
  obtain ⟨h1, h2, hne⟩ := hp
  unfold close pipe
  rw [Finset.erase_insert_of_ne hne.symm, Finset.erase_insert h1, Finset.erase_insert h2]

/-- Two pipes whose write ends are closed are two read ends. -/
theorem close_pipes (hp : Unused fds p) (hq : Unused (pipe p fds) q) :
    close q.2 (close p.2 (pipe q (pipe p fds))) = insert q.1 (insert p.1 fds) := by
  obtain ⟨-, h2, hne⟩ := hp
  obtain ⟨hq1, hq2, hqne⟩ := hq
  have hwrite : p.2 ∉ insert p.1 fds := by
    rw [Finset.mem_insert, not_or]
    exact ⟨hne.symm, h2⟩
  have hmem : p.2 ∈ pipe p fds := Finset.mem_insert_self ..
  have h12 : q.1 ≠ p.2 := fun h => hq1 (h ▸ hmem)
  have h22 : q.2 ≠ p.2 := fun h => hq2 (h ▸ hmem)
  have hlast : q.2 ∉ insert p.1 fds := fun h => hq2 (Finset.mem_insert_of_mem h)
  unfold close
  rw [pipe, Finset.erase_insert_of_ne h22, Finset.erase_insert_of_ne h12, pipe, Finset.erase_insert hwrite,
    Finset.erase_insert]
  rw [Finset.mem_insert, not_or]
  exact ⟨hqne.symm, hlast⟩

/-- **A save** -/
theorem onDbSave_stepped (h : Possible s stdoutPipes stderrPipes fork) :
    Stepped s (.dbSaved stdoutPipes stderrPipes fork) (onDbSave stdoutPipes stderrPipes fork s) := by
  have hrefused : onDbSave stdoutPipes stderrPipes fork s = s →
      ¬ ForkFails s (.dbSaved stdoutPipes stderrPipes fork) →
      Stepped s (.dbSaved stdoutPipes stderrPipes fork) (onDbSave stdoutPipes stderrPipes fork s) := by
    intro heq hok
    rw [heq]
    exact .refused hok
  by_cases hcommand : s.command = none
  · apply hrefused (by unfold onDbSave; rw [hcommand])
    unfold ForkFails
    split
    · exact fun hf => hf.1 hcommand
    · exact id
  obtain ⟨command, hsome⟩ := Option.ne_none_iff_exists'.mp hcommand
  by_cases hrun : s.updateCommandProc.running = true
  · apply hrefused (by unfold onDbSave; rw [hsome]; exact if_pos hrun)
    unfold ForkFails
    split
    · exact fun hf => absurd hrun (by rw [hf.2]; decide)
    · exact id
  have hidle : s.updateCommandProc.running = false := Bool.eq_false_iff.mpr hrun
  cases stdoutPipes with
  | error _ => exact hrefused (by unfold onDbSave; rw [hsome]; exact if_neg hrun) nofun
  | ok p =>
    obtain ⟨hp, hq⟩ := h.1 p rfl
    cases stderrPipes with
    | error _ =>
      apply hrefused _ nofun
      unfold onDbSave
      rw [hsome]
      apply (if_neg hrun).trans
      show { s with command := some command, fds := close p.2 (close p.1 (pipe p s.fds)) } = s
      rw [close_pipe hp, ← hsome]
    | ok q =>
      cases fork with
      | error errno =>
        have hgo : onDbSave (.ok p) (.ok q) (.error errno) s = { s with fds := pipe q (pipe p s.fds) } := by
          unfold onDbSave
          rw [hsome]
          exact if_neg hrun
        rw [hgo]
        exact .forkFailed hp ⟨hcommand, hidle⟩
      | ok pid =>
        have hgo : onDbSave (.ok p) (.ok q) (.ok pid) s =
            { s with
              fds := insert q.1 (insert p.1 s.fds)
              conns := s.conns ++ [p.1, q.1]
              updateCommandProc := ⟨some p.1, some q.1, pid, true⟩
              children := s.children ++ [pid] } := by
          unfold onDbSave
          rw [hsome, ← close_pipes hp (hq q rfl)]
          exact if_neg hrun
        rw [hgo]
        exact .started hp (hq q rfl) hidle

theorem step_cases (h : step s e = some s') : Stepped s e s' := by
  cases e with
  | dbSaved stdoutPipes stderrPipes fork =>
    obtain ⟨hpos, hs'⟩ := Option.ite_none_right_eq_some.mp h
    cases hs'
    exact onDbSave_stepped hpos
  | childExit pid =>
    obtain ⟨hpid, hs'⟩ := Option.ite_none_right_eq_some.mp h
    cases hs'
    exact .childExit hpid
  | endOfFile fd =>
    obtain ⟨hfd, hs'⟩ := Option.ite_none_right_eq_some.mp h
    cases hs'
    exact .endOfFile hfd
  | config command =>
    cases h
    exact .config

/-- What a failed fork leaves open. -/
theorem forkFails_open (hp : Unused fds p) : pipe q (pipe p fds) ≠ fds := by
  intro h
  have hmem : p.1 ∈ pipe q (pipe p fds) := by simp [pipe]
  exact hp.1 (h ▸ hmem)

/-- The second pipe's read end is not in use, and is not the first one's. -/
theorem read_ends (hq : Unused (pipe p fds) q) : q.1 ∉ fds ∧ p.1 ≠ q.1 := by
  constructor
  · exact fun hmem => hq.1 (Finset.mem_insert_of_mem (Finset.mem_insert_of_mem hmem))
  · exact fun h => hq.1 (h ▸ Finset.mem_insert_of_mem (Finset.mem_insert_self ..))

/-! ### One command at a time -/

/-- The flag says whether the command runs. -/
def Watched (s : State) : Prop :=
  s.children = if s.updateCommandProc.running then [s.updateCommandProc.pid] else []

theorem Watched.length_le_one (h : Watched s) : s.children.length ≤ 1 := by
  unfold Watched at h
  rw [h]
  split
  · exact Nat.le_refl 1
  · exact Nat.zero_le 1

theorem watched_step (s : State) (e : Event) (s' : State) (hs : Watched s) (h : step s e = some s') :
    Watched s' := by
  cases step_cases h with
  | refused => exact hs
  | forkFailed => exact hs
  | @started p q pid hp hq hidle =>
    have hnone : s.children = [] := by rw [hs, hidle]; rfl
    show s.children ++ [pid] = [pid]
    rw [hnone, List.nil_append]
  | @childExit pid hpid =>
    show s.children.erase pid = []
    -- the child that ends is the only one
    have hlen := List.length_erase_of_mem hpid
    have hone := hs.length_le_one
    apply List.length_eq_zero_iff.mp
    omega
  | endOfFile => exact hs
  | config => exact hs

/-- **At most one update command runs at any time.** -/
theorem children_le_one {command : Option CStr} (h : Run.Reach step (start command fds₀) s) :
    s.children.length ≤ 1 := by
  have hstart : Watched (start command fds₀) := rfl
  exact (Run.reach_inv hstart watched_step h).length_le_one

/-! ### No descriptor is lost -/

/-- A save is clean unless its fork fails. -/
theorem clean_step (s : State) (e : Event) (s' : State) (hs : Watched s) (h : step s e = some s') :
    ¬ ForkFails s e ↔ Clean s e s' := by
  have hone : s'.children.length ≤ 1 := (watched_step s e s' hs h).length_le_one
  unfold Clean
  rw [and_iff_right hone]
  cases step_cases h with
  | refused hok => exact iff_of_true hok (Or.inl ⟨rfl, rfl, rfl⟩)
  | forkFailed hp hfail =>
    refine iff_of_false (not_not.mpr hfail) fun h => ?_
    rcases h with ⟨-, hfds, -⟩ | ⟨p, q, pid, -, -, hchildren, -⟩
    · exact forkFails_open hp hfds
    · have hlen := congrArg List.length hchildren
      rw [List.length_append] at hlen
      simp at hlen
  | @started p q pid hp hq =>
    obtain ⟨hq1, hne⟩ := read_ends hq
    exact iff_of_true nofun (Or.inr ⟨p, q, pid, rfl, rfl, rfl, rfl, rfl, hp.1, hq1, hne⟩)
  | childExit => exact iff_of_true id rfl
  | endOfFile => exact iff_of_true id trivial
  | config => exact iff_of_true id trivial

/-- **Every event is clean exactly if no fork fails.** -/
theorem clean_iff (command : Option CStr) (fds₀ : Finset ℕ) (es : List Event) :
    Run.Along step Clean (start command fds₀) es ↔
      Run.Along step (fun s e _ => ¬ ForkFails s e) (start command fds₀) es := by
  have hstart : Watched (start command fds₀) := rfl
  exact (Run.along_congr Watched clean_step (fun s e s' hs h _ => watched_step s e s' hs h) hstart).symm

/-- No process can be forked: four descriptors are left. -/
theorem failed_fork_leaks : ¬ Run.Along step Clean (start (some "make".toList) {0, 1, 2})
    [.dbSaved (.ok (3, 4)) (.ok (5, 6)) (.error 11)] := by
  intro h
  have hpos : Possible (start (some "make".toList) {0, 1, 2}) (.ok (3, 4)) (.ok (5, 6)) (.error 11) := by
    decide
  rcases (h _ (step_dbSaved hpos)).1.2 with ⟨-, hfds, -⟩ | ⟨p, q, pid, -, -, hchildren, -⟩
  · exact absurd hfds (by decide)
  · have hlen : 0 = 1 := congrArg List.length hchildren
    cases hlen

/-- A descriptor is open that was open before, or belongs to a connection. -/
def Accounted (fds₀ : Finset ℕ) (s : State) : Prop := ∀ fd, fd ∈ s.fds ↔ fd ∈ fds₀ ∨ fd ∈ s.conns

/-- A connection has a descriptor of its own. -/
def Owned (fds₀ : Finset ℕ) (s : State) : Prop := s.conns.Nodup ∧ ∀ fd ∈ s.conns, fd ∉ fds₀

/-- A command that is started hands over descriptors of its own. -/
theorem owned_started (ho : Owned fds₀ s) (ha : Accounted fds₀ s) (hp : Unused s.fds p)
    (hq : Unused (pipe p s.fds) q) (h : s'.conns = s.conns ++ [p.1, q.1]) : Owned fds₀ s' := by
  have hfree : ∀ fd, fd ∉ s.fds → fd ∉ fds₀ ∧ fd ∉ s.conns := by
    intro fd hfd
    exact ⟨fun hmem => hfd ((ha fd).mpr (Or.inl hmem)), fun hmem => hfd ((ha fd).mpr (Or.inr hmem))⟩
  obtain ⟨hq1, hne⟩ := read_ends hq
  unfold Owned
  rw [h]
  constructor
  · rw [List.nodup_append]
    refine ⟨ho.1, by simpa using hne, ?_⟩
    intro a ha' b hb hab
    simp only [List.mem_cons, List.not_mem_nil, or_false] at hb
    rcases hb with rfl | rfl
    · exact (hfree _ hp.1).2 (hab ▸ ha')
    · exact (hfree _ hq1).2 (hab ▸ ha')
  · intro fd hfd
    simp only [List.mem_append, List.mem_cons, List.not_mem_nil, or_false] at hfd
    rcases hfd with hfd | rfl | rfl
    · exact ho.2 fd hfd
    · exact (hfree _ hp.1).1
    · exact (hfree _ hq1).1

theorem owned_step (s : State) (e : Event) (s' : State) (ho : Owned fds₀ s) (ha : Accounted fds₀ s)
    (h : step s e = some s') : Owned fds₀ s' := by
  cases step_cases h with
  | refused => exact ho
  | forkFailed => exact ho
  | started hp hq => exact owned_started ho ha hp hq rfl
  | childExit => exact ho
  | endOfFile => exact ⟨ho.1.erase _, fun fd hfd => ho.2 fd (List.mem_of_mem_erase hfd)⟩
  | config => exact ho

theorem accounted_step (s : State) (e : Event) (s' : State) (ho : Owned fds₀ s) (ha : Accounted fds₀ s)
    (h : step s e = some s') : ¬ ForkFails s e ↔ Accounted fds₀ s' := by
  cases step_cases h with
  | refused hok => exact iff_of_true hok ha
  | @forkFailed p q errno hp hfail =>
    refine iff_of_false (not_not.mpr hfail) fun hacc => hp.1 ((ha p.1).mpr ((hacc p.1).mp ?_))
    simp [pipe]
  | started =>
    refine iff_of_true nofun fun fd => ?_
    simp only [Finset.mem_insert, List.mem_append, List.mem_cons, List.not_mem_nil, or_false, ha fd]
    tauto
  | childExit => exact iff_of_true id ha
  | @endOfFile fd hfd =>
    refine iff_of_true id fun fd' => ?_
    show fd' ∈ s.fds.erase fd ↔ fd' ∈ fds₀ ∨ fd' ∈ s.conns.erase fd
    rw [Finset.mem_erase, ho.1.mem_erase_iff, ha fd', and_or_left]
    apply or_congr_left
    exact and_iff_right_of_imp fun hmem h => ho.2 fd hfd (h ▸ hmem)
  | config => exact iff_of_true id ha

/-- **Over a whole run**, every descriptor that is open belongs to someone exactly
if no fork fails. -/
theorem accounted_iff (command : Option CStr) (fds₀ : Finset ℕ) (es : List Event) :
    Run.Always step (Accounted fds₀) (start command fds₀) es ↔
      Run.Along step (fun s e _ => ¬ ForkFails s e) (start command fds₀) es := by
  have hstart : Owned fds₀ (start command fds₀) := ⟨List.nodup_nil, nofun⟩
  have hopen : Accounted fds₀ (start command fds₀) := fun fd => by simp [start]
  exact Run.always_iff_along (Owned fds₀) hstart hopen accounted_step owned_step es

end OnDbSave
end AthemeContrib
