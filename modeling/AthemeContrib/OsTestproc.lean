/-
# os_testproc: a child process and who started it

`TESTPROC` forks a shell that writes some lines, and hands the read end of its pipe to a
connection; the lines are told to who gave the command, whose name is copied. One such
connection at most is open at a time, because the pointer to it is cleared when it is
closed and not before, so a line is never told to somebody else than who started the
child that wrote it, and whatever fails, no descriptor is left open (`testproc_runs`).
A name longer than nicks can be is copied in part.

The model is of the parent. A connection is a number that is given out once, and the
numbers the kernel gives to a pipe's ends are not in use. Sending to a connection that is
not the current one is logged only. `starters` are those whose commands were accepted,
with the connection each got.

Key definitions: `osCmdTestproc`, `testprocRecvqhandler`, `testprocClosehandler`, `step`,
`Phase`, `Accounted`, `Told`.
Key theorems: `Phase.accounted`, `step_told`, `testproc_runs`.
-/
import Mathlib.Data.Finset.Lattice.Lemmas
import AthemeContrib.Command
import AthemeContrib.OnDbSave

namespace AthemeContrib
namespace OsTestproc

open CStr OnDbSave

/-- A connection for a pipe. -/
structure Connection where
  id : ℕ
  fd : ℕ
deriving DecidableEq, Repr

/-- `procdata`, the connections for pipes that are open, the open descriptors, and what
has been sent. -/
structure State where
  pip : Option ℕ
  dest : CStr
  conns : List Connection
  next : ℕ
  fds : Finset ℕ
  starters : List (ℕ × CStr)
  sent : List Output
deriving DecidableEq

def start (fds₀ : Finset ℕ) : State := ⟨none, [], [], 0, fds₀, [], []⟩

/-- `TESTPROC`, from the user that goes by the name `su` to the server (`CLIENT_NAME`), if
it is one, with what `pipe` and `fork` do; `nicklen` is `COMPAT_NICKLEN`. -/
def osCmdTestproc (nicklen : ℕ) (su : Option CStr) (pipes : Option (ℕ × ℕ)) (fork : Bool) (s : State) :
    State × List Output :=
  match su with
  | none => (s, [.fail .noprivs "\x02TESTPROC\x02 can only be executed via IRC."])
  | some su =>
    if s.pip.isSome then (s, [.fail .toomany "Another TESTPROC is still in progress"])
    else
      match pipes with
      | none => (s, [.fail .toomany "Failed to create pipe"])
      | some pipes =>
        let fds := pipe pipes s.fds
        if fork then
          ({ s with
            pip := some s.next
            dest := strlcpy su (nicklen + 1)
            conns := s.conns ++ [⟨s.next, pipes.1⟩]
            next := s.next + 1
            fds := close pipes.2 fds
            starters := s.starters ++ [(s.next, su)] }, [])
        else ({ s with fds := close pipes.2 (close pipes.1 fds) }, [.fail .toomany "Failed to fork"])

/-- What is left in `buf` of the characters that were read, of which there are some. -/
def lineText (buf : List Char) : CStr :=
  let buf := if buf.getLast? = some '\n' then buf.dropLast else buf
  let buf := if buf.getLast? = some '\r' then buf.dropLast else buf
  cstr (if buf = [] then [' '] else buf)

/-- `testproc_recvqhandler`, with what `recvq_getline` returns of the connection `cptr`,
and `userFind` for the nick of who goes by a name. -/
def testprocRecvqhandler (cptr : ℕ) (buf : List Char) (userFind : CStr → Option CStr) (s : State) :
    List Output :=
  if s.pip ≠ some cptr then []
  else if buf = [] then []
  else ((userFind s.dest).map fun nick => .notice (String.ofList nick) (String.ofList (lineText buf))).toList

/-- `testproc_closehandler` -/
def testprocClosehandler (cptr : ℕ) (s : State) : State :=
  if s.pip ≠ some cptr then s else { s with pip := none }

/-- The command is given; there is something to read from a connection, or its end is
reached. -/
inductive Event
  | testproc (su : Option CStr) (pipes : Option (ℕ × ℕ)) (fork : Bool)
  | readable (cptr : ℕ) (buf : List Char) (userFind : CStr → Option CStr)
  | endOfFile (cptr : ℕ)

/-- The open connection `cptr`. -/
def State.conn? (s : State) (cptr : ℕ) : Option Connection := s.conns.find? (·.id = cptr)

/-- A connection that is closed has its handler run, and its descriptor closed. -/
def step (nicklen : ℕ) (s : State) : Event → Option State
  | .testproc su pipes fork =>
    if ∀ p ∈ pipes, Unused s.fds p then
      let r := osCmdTestproc nicklen su pipes fork s
      some { r.1 with sent := r.1.sent ++ r.2 }
    else none
  | .readable cptr buf userFind =>
    (s.conn? cptr).map fun _ => { s with sent := s.sent ++ testprocRecvqhandler cptr buf userFind s }
  | .endOfFile cptr =>
    (s.conn? cptr).map fun c =>
      { testprocClosehandler cptr s with
        conns := s.conns.filter (·.id ≠ cptr)
        fds := close c.fd s.fds }

/-- One connection at most is open, and no descriptor but its own and those of others. -/
def Accounted (fds₀ : Finset ℕ) (s : State) : Prop :=
  s.conns.length ≤ 1 ∧ s.fds = fds₀ ∪ (s.conns.map Connection.fd).toFinset

/-- What a step sends and starts: a command starts a child exactly if a user gives it, no
connection is open, and nothing fails, and has a reply otherwise; what is read is told to
who started the child, if it is there. -/
def Told (nicklen : ℕ) (s : State) (e : Event) (s' : State) : Prop :=
  match e with
  | .testproc su pipes fork =>
    (∃ name, su = some name ∧ s.conns = [] ∧ pipes.isSome = true ∧ fork = true ∧ s'.sent = s.sent ∧
      s'.starters = s.starters ++ [(s.next, name)] ∧ s'.conns.map Connection.id = [s.next]) ∨
    (su = none ∨ s.conns ≠ [] ∨ pipes = none ∨ fork = false) ∧
      (∃ code text, s'.sent = s.sent ++ [.fail code text]) ∧ s'.starters = s.starters ∧ s'.conns = s.conns
  | .readable cptr buf userFind => ∃ name, (cptr, name) ∈ s.starters ∧
      s'.sent = s.sent ++ (if buf = [] then [] else ((userFind (name.take nicklen)).map fun nick =>
        .notice (String.ofList nick) (String.ofList (lineText buf))).toList)
  | .endOfFile _ => s'.sent = s.sent ∧ s'.conns = []

/-- No child's pipe is open, or one is, which `procdata` is about. -/
inductive Phase (nicklen : ℕ) (fds₀ : Finset ℕ) (s : State) : Prop
  | idle (hconns : s.conns = []) (hpip : s.pip = none) (hfds : s.fds = fds₀)
  | busy {c : Connection} {name : CStr} (hconns : s.conns = [c]) (hpip : s.pip = some c.id)
      (hfds : s.fds = insert c.fd fds₀) (hnew : c.fd ∉ fds₀) (hstarter : (c.id, name) ∈ s.starters)
      (hdest : s.dest = name.take nicklen)

variable {nicklen : ℕ} {fds₀ : Finset ℕ} {s s' : State} {e : Event}

theorem Phase.accounted (h : Phase nicklen fds₀ s) : Accounted fds₀ s := by
  cases h with
  | idle hconns hpip hfds => simp [Accounted, hconns, hfds]
  | busy hconns hpip hfds hnew hstarter hdest =>
    refine ⟨by simp [hconns], ?_⟩
    rw [hconns, hfds, Finset.insert_eq, Finset.union_comm]
    simp

/-- A pipe whose write end is closed is its read end. -/
theorem close_write {p : ℕ × ℕ} (hp : Unused fds₀ p) : close p.2 (pipe p fds₀) = insert p.1 fds₀ := by
  obtain ⟨-, h2, hne⟩ := hp
  unfold close pipe
  rw [Finset.erase_insert]
  rw [Finset.mem_insert, not_or]
  exact ⟨hne.symm, h2⟩

/-- A command that starts no child leaves everything as it is, but for a reply. -/
structure Refused (s : State) (r : State × List Output) : Prop where
  same : r.1 = s
  reply : ∃ code text, r.2 = [.fail code text]

theorem osCmdTestproc_refused {su : Option CStr} {pipes : Option (ℕ × ℕ)} {fork : Bool}
    (hp : ∀ p ∈ pipes, Unused s.fds p) (h : su = none ∨ s.pip ≠ none ∨ pipes = none ∨ fork = false) :
    Refused s (osCmdTestproc nicklen su pipes fork s) := by
  unfold osCmdTestproc
  split
  · exact ⟨rfl, _, _, rfl⟩
  · split
    · exact ⟨rfl, _, _, rfl⟩
    · rename_i hpip
      split
      · exact ⟨rfl, _, _, rfl⟩
      · rename_i p
        rw [Option.isSome_iff_ne_none, not_not] at hpip
        have hfork : fork = false := by simpa [hpip] using h
        subst hfork
        refine ⟨?_, _, _, rfl⟩
        show { s with fds := close p.2 (close p.1 (pipe p s.fds)) } = s
        rw [close_pipe (hp p rfl)]

/-- A command that starts a child. -/
theorem osCmdTestproc_started {name : CStr} {p : ℕ × ℕ} (hp : Unused s.fds p) (hpip : s.pip = none) :
    osCmdTestproc nicklen (some name) (some p) true s = ({ s with
      pip := some s.next
      dest := name.take nicklen
      conns := s.conns ++ [⟨s.next, p.1⟩]
      next := s.next + 1
      fds := insert p.1 s.fds
      starters := s.starters ++ [(s.next, name)] }, []) := by
  simp [osCmdTestproc, hpip, close_write hp, strlcpy]

/-- The connections that are open are the current one. -/
theorem Phase.pip_none (h : Phase nicklen fds₀ s) : s.pip = none ↔ s.conns = [] := by
  cases h with
  | idle hconns hpip => exact iff_of_true hpip hconns
  | busy hconns hpip => simp [hconns, hpip]

theorem Phase.of_conn (h : Phase nicklen fds₀ s) {cptr : ℕ} {c : Connection} (hc : s.conn? cptr = some c) :
    c.id = cptr ∧ s.conns = [c] ∧ s.pip = some cptr ∧ s.fds = insert c.fd fds₀ ∧ c.fd ∉ fds₀ ∧
      ∃ name, (cptr, name) ∈ s.starters ∧ s.dest = name.take nicklen := by
  have hid : c.id = cptr := by simpa using List.find?_some hc
  have hmem : c ∈ s.conns := List.mem_of_find?_eq_some hc
  cases h with
  | idle hconns =>
    rw [hconns] at hmem
    cases hmem
  | @busy c' name hconns hpip hfds hnew hstarter hdest =>
    rw [hconns, List.mem_singleton] at hmem
    subst hmem
    exact ⟨hid, hconns, hid ▸ hpip, hfds, hnew, name, hid ▸ hstarter, hdest⟩

/-- **One step** leaves no child's pipe open, or one, and tells what it should. -/
theorem step_told (hs : Phase nicklen fds₀ s) (h : step nicklen s e = some s') :
    Phase nicklen fds₀ s' ∧ Told nicklen s e s' := by
  cases e with
  | testproc su pipes fork =>
    obtain ⟨hpipes, h⟩ := Option.ite_none_right_eq_some.mp h
    by_cases hrefused : su = none ∨ s.pip ≠ none ∨ pipes = none ∨ fork = false
    · obtain ⟨hsame, code, text, hreply⟩ : Refused s (osCmdTestproc nicklen su pipes fork s) :=
        osCmdTestproc_refused hpipes hrefused
      cases h
      rw [hsame, hreply]
      refine ⟨?_, Or.inr ⟨?_, ⟨code, text, rfl⟩, rfl, rfl⟩⟩
      · cases hs with
        | idle hconns hpip hfds => exact .idle hconns hpip hfds
        | busy hconns hpip hfds hnew hstarter hdest => exact .busy hconns hpip hfds hnew hstarter hdest
      · rwa [ne_eq, hs.pip_none] at hrefused
    · simp only [not_or, not_not, Bool.not_eq_false] at hrefused
      obtain ⟨hsu, hpip, hpipe, rfl⟩ := hrefused
      obtain ⟨name, rfl⟩ := Option.ne_none_iff_exists'.mp hsu
      obtain ⟨p, rfl⟩ := Option.ne_none_iff_exists'.mp hpipe
      have hp : Unused s.fds p := hpipes p rfl
      have hconns : s.conns = [] := hs.pip_none.mp hpip
      rw [osCmdTestproc_started hp hpip] at h
      cases h
      refine ⟨?_, Or.inl ⟨name, rfl, hconns, rfl, rfl, List.append_nil _, rfl, ?_⟩⟩
      · cases hs with
        | idle _ _ hfds =>
          exact .busy (by rw [hconns]; rfl) rfl (by rw [hfds]) (hfds ▸ hp.1)
            (List.mem_append_right _ (List.mem_singleton_self _)) rfl
        | busy hbusy =>
          rw [hconns] at hbusy
          cases hbusy
      · rw [hconns]
        rfl
  | readable cptr buf userFind =>
    obtain ⟨c, hc, rfl⟩ := Option.map_eq_some_iff.mp h
    obtain ⟨-, -, hpip, -, -, name, hstarter, hdest⟩ := hs.of_conn hc
    refine ⟨?_, name, hstarter, ?_⟩
    · cases hs with
      | idle hconns hpip hfds => exact .idle hconns hpip hfds
      | busy hconns hpip hfds hnew hstarter hdest => exact .busy hconns hpip hfds hnew hstarter hdest
    · rw [← hdest]
      simp [testprocRecvqhandler, hpip]
  | endOfFile cptr =>
    obtain ⟨c, hc, rfl⟩ := Option.map_eq_some_iff.mp h
    obtain ⟨hid, hconns, hpip, hfds, hnew, -⟩ := hs.of_conn hc
    have hclosed : testprocClosehandler cptr s = { s with pip := none } := by
      simp [testprocClosehandler, hpip]
    have hnone : s.conns.filter (·.id ≠ cptr) = [] := by
      rw [hconns]
      simp [hid]
    rw [hclosed, hnone]
    refine ⟨.idle rfl rfl ?_, rfl, rfl⟩
    show s.fds.erase c.fd = fds₀
    rw [hfds, Finset.erase_insert hnew]

/-- **In every run** one child's pipe at most is open, nothing that fails leaves a
descriptor open, and what a child writes is told to who started it. -/
theorem testproc_runs (nicklen : ℕ) (fds₀ : Finset ℕ) (es : List Event) :
    Run.Always (step nicklen) (Accounted fds₀) (start fds₀) es ∧
      Run.Along (step nicklen) (Told nicklen) (start fds₀) es := by
  have hstart : Phase nicklen fds₀ (start fds₀) := .idle rfl rfl rfl
  have hreach {s : State} (hr : Run.Reach (step nicklen) (start fds₀) s) : Phase nicklen fds₀ s :=
    Run.reach_inv hstart (fun _ _ _ hs h => (step_told hs h).1) hr
  exact ⟨⟨hstart.accounted, Run.along_of_reach (fun _ _ _ hr h => (step_told (hreach hr) h).1.accounted) es⟩,
    Run.along_of_reach (fun _ _ _ hr h => (step_told (hreach hr) h).2) es⟩

end OsTestproc
end AthemeContrib
