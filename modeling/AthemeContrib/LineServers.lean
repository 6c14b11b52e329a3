/-
# The echo server and the listener demo: lines out of reads

Both servers take a read apart at its newlines and keep what is behind the last
one in a static buffer, to be put in front of the next line. One buffer serves
all connections, a read without a newline overwrites it, the echo server sends a
line with all that is behind it in the read, and the demo looks for a line's
carriage return in the read that ends it.

So what the buffer holds is the rest of the last read, whoever's it was
(`Buffered`), and a client gets its lines back exactly as long as each read that
ends a line ends no more than that one and finds the client's own rest in the
buffer (`echoed_iff`); the demo may end several lines at once (`logged_iff`).

Key definitions: `packetLoop`, `Echoserver.doPacket`, `Listenerdemo.doPacket`,
`step`, `Echoed`, `Logged`, `EchoMeets`, `DemoMeets`.
Key theorems: `doPacket_cut`, `echoed_iff`, `logged_iff`, `line_servers_iff`.
-/
import AthemeContrib.Lib.CString
import AthemeContrib.Lib.Lines
import AthemeContrib.Lib.Run
import Mathlib.Data.List.Basic

namespace AthemeContrib
namespace LineServers

open CStr Lines

/-- `snprintf(buf2, BUFSIZE * 2, "%s%s", tmp, buf)` -/
def snprintf (bufsize : ℕ) (tmp buf : CStr) : CStr := (tmp ++ buf).take (bufsize * 2 - 1)

/-- The loop of `do_packet`: what is made of each newline, `tmp`, and where `buf`
points. `arg` is what is printed, of the line and of the string it is in front of. -/
def packetLoop (bufsize : ℕ) (arg : CStr → CStr → CStr) : ℕ → CStr → CStr → List CStr × CStr × CStr
  | 0, tmp, buf => ([], tmp, buf)
  | n + 1, tmp, buf =>
    match strchr buf '\n' with
    | none => ([], tmp, buf)
    | some ptr =>
      let line := buf.take (buf.length - ptr.length)
      let buf2 := snprintf bufsize tmp (arg line buf)
      let (bufs, tmp, buf) := packetLoop bufsize arg n [] ptr.tail
      (buf2 :: bufs, tmp, buf)

/-- `do_packet`: each `buf2`, and `tmp` afterwards. -/
def doPacket (bufsize : ℕ) (arg : CStr → CStr → CStr) (tmp buf : CStr) : List CStr × CStr :=
  let (bufs, tmp, buf) := packetLoop bufsize arg buf.length tmp buf
  (bufs, if buf = [] then tmp else strlcpy buf (bufsize * 2))

/-- The echo server prints from the line on. -/
def Echoserver.arg (_ buf : CStr) : CStr := buf

/-- `do_packet` of the echo server: what is added to the send queue. -/
def Echoserver.doPacket (bufsize : ℕ) : CStr → CStr → List CStr × CStr :=
  LineServers.doPacket bufsize Echoserver.arg

/-- A line without the carriage return that it ends with. -/
def stripCr (line : CStr) : CStr := if line.getLast? = some '\r' then line.dropLast else line

/-- The demo prints the line, where it ends it. -/
def Listenerdemo.arg (line _ : CStr) : CStr := stripCr line

/-- `do_packet` of the listener demo: what is logged as incoming. -/
def Listenerdemo.doPacket (bufsize : ℕ) : CStr → CStr → List CStr × CStr :=
  LineServers.doPacket bufsize Listenerdemo.arg

/-- What `my_read` got, less than a buffer of it. -/
structure Chunk (bufsize : ℕ) where
  text : CStr
  ne_nil : text ≠ []
  noNul : '\x00' ∉ text
  short : text.length < bufsize

/-- A server: the static buffer, the connections, the count of bytes, and each
`buf2` with its connection. What was read from each connection is noted. -/
structure State where
  tmp : CStr
  conns : List ℕ
  next : ℕ
  bin : ℕ
  out : List (ℕ × CStr)
  received : List (ℕ × CStr)
deriving DecidableEq, Repr

def init : State := ⟨[], [], 0, 0, [], []⟩

/-- A connection is accepted, or is ready to be read from; `my_read` returns no
more than zero where there is no chunk. -/
inductive Event (bufsize : ℕ)
  | accept
  | read (cptr : ℕ) (chunk : Option (Chunk bufsize))

/-- `my_rhandler`, with the server's `do_packet`. -/
def myRhandler {bufsize : ℕ} (doPacket : CStr → CStr → List CStr × CStr) (cptr : ℕ)
    (chunk : Option (Chunk bufsize)) (s : State) : State :=
  match chunk with
  | none => { s with conns := s.conns.erase cptr }
  | some chunk =>
    let (bufs, tmp) := doPacket s.tmp chunk.text
    { s with
      tmp
      bin := s.bin + chunk.text.length
      out := s.out ++ bufs.map fun buf => (cptr, buf)
      received := s.received ++ [(cptr, chunk.text)] }

def step {bufsize : ℕ} (doPacket : CStr → CStr → List CStr × CStr) (s : State) :
    Event bufsize → Option State
  | .accept => some { s with conns := s.conns ++ [s.next], next := s.next + 1 }
  | .read cptr chunk => if cptr ∈ s.conns then some (myRhandler doPacket cptr chunk s) else none

/-- What is listed for the connection. -/
def ofConn (cptr : ℕ) (l : List (ℕ × CStr)) : List CStr := (l.filter (·.1 = cptr)).map Prod.snd

/-- What was read from the connection. -/
def stream (s : State) (cptr : ℕ) : CStr := (ofConn cptr s.received).flatten

/-- What was read last, from any connection, and is behind its last newline. -/
def lastRest (s : State) : CStr := (s.received.getLast?.map fun r => rest '\n' r.2).getD []

/-- What is queued for each client are its complete lines. -/
def Echoed (s : State) : Prop :=
  ∀ cptr, (ofConn cptr s.out).flatten = Joined.lead '\n' (lines '\n' (stream s cptr))

/-- What is logged of each connection are its complete lines, without their ends. -/
def Logged (s : State) : Prop :=
  ∀ cptr, ofConn cptr s.out = (lines '\n' (stream s cptr)).map stripCr

/-- A read that has a newline has it at its end, once, and the last read, from
whatever connection, left what this connection's line has so far. -/
def EchoMeets {bufsize : ℕ} (s : State) : Event bufsize → Prop
  | .read cptr (some chunk) => '\n' ∈ chunk.text →
    (∃ line, chunk.text = line ++ ['\n'] ∧ '\n' ∉ line) ∧ lastRest s = rest '\n' (stream s cptr)
  | _ => True

/-- The last read left what the line that is ended has so far; if nothing of it
is in this read, it left that without a carriage return. -/
def DemoMeets {bufsize : ℕ} (s : State) : Event bufsize → Prop
  | .read cptr (some chunk) => '\n' ∈ chunk.text →
    lastRest s = if chunk.text.head? = some '\n' then stripCr (rest '\n' (stream s cptr))
      else rest '\n' (stream s cptr)
  | _ => True

/-! ### One read -/

section Loop

variable {bufsize n : ℕ} {arg : CStr → CStr → CStr} {w buf : CStr}

/-- Nothing is printed without a newline. -/
theorem packetLoop_of_notMem (h : '\n' ∉ buf) (tmp : CStr) :
    packetLoop bufsize arg n tmp buf = ([], tmp, buf) := by
  cases n with
  | zero => rfl
  | succ n =>
    unfold packetLoop
    rw [strchr_none h]

/-- A line, and the rest of the loop without the buffer. -/
theorem packetLoop_cut (hw : '\n' ∉ w) (tmp s : CStr) :
    packetLoop bufsize arg (n + 1) tmp (w ++ '\n' :: s) =
      (snprintf bufsize tmp (arg w (w ++ '\n' :: s)) :: (packetLoop bufsize arg n [] s).1,
        (packetLoop bufsize arg n [] s).2) := by
  have hline : (w ++ '\n' :: s).take ((w ++ '\n' :: s).length - ('\n' :: s).length) = w := by
    rw [List.length_append, Nat.add_sub_cancel, List.take_left]
  rw [packetLoop, strchr_append hw]
  simp only [hline, List.tail_cons]

/-- The loop ends behind the last newline. -/
theorem packetLoop_snd (arg : CStr → CStr → CStr) (buf : CStr) : ∀ {n : ℕ}, buf.length ≤ n →
    (packetLoop bufsize arg n [] buf).2 = ([], rest '\n' buf) := by
  induction buf using line_induction '\n' with
  | hrest w hw =>
    intro n _
    rw [packetLoop_of_notMem hw, (lines_of_notMem hw).2]
  | hline w s hw ih =>
    intro n hn
    rw [List.length_append, List.length_cons] at hn
    obtain ⟨m, rfl⟩ : ∃ m, n = m + 1 := ⟨n - 1, by omega⟩
    rw [packetLoop_cut hw, (lines_cut hw s).2]
    exact ih (by omega)

/-- A read without a newline is put in the buffer. -/
theorem doPacket_of_notMem (hbuf : '\n' ∉ buf) (h0 : buf ≠ []) (hlen : buf.length < bufsize) (tmp : CStr) :
    doPacket bufsize arg tmp buf = ([], buf) := by
  have hcopy : strlcpy buf (bufsize * 2) = buf := strlcpy_eq_self (by omega)
  unfold doPacket
  rw [packetLoop_of_notMem hbuf]
  simp only [if_neg h0, hcopy]

/-- A read that ends a line: what is printed for it, and what is left behind the
last newline. -/
theorem doPacket_cut {s : CStr} (hw : '\n' ∉ w) (hlen : (w ++ '\n' :: s).length < bufsize) (tmp : CStr) :
    doPacket bufsize arg tmp (w ++ '\n' :: s) =
      (snprintf bufsize tmp (arg w (w ++ '\n' :: s)) :: (packetLoop bufsize arg (w.length + s.length) [] s).1,
        rest '\n' s) := by
  have hn : (w ++ '\n' :: s).length = w.length + s.length + 1 := by
    rw [List.length_append, List.length_cons, Nat.add_assoc]
  have hsnd : (packetLoop bufsize arg (w.length + s.length) [] s).2 = ([], rest '\n' s) :=
    packetLoop_snd arg s (by omega)
  have hle := length_rest_le '\n' s
  have hcopy : strlcpy (rest '\n' s) (bufsize * 2) = rest '\n' s := strlcpy_eq_self (by omega)
  unfold doPacket
  rw [hn, packetLoop_cut hw, hsnd]
  simp only [hcopy]
  split
  · rename_i h0
    rw [h0]
  · rfl

theorem snprintf_eq {tmp buf : CStr} (h : tmp.length + buf.length < bufsize * 2) :
    snprintf bufsize tmp buf = tmp ++ buf := by
  apply List.take_of_length_le
  rw [List.length_append]
  omega

/-- A read with a newline, cut there. -/
theorem Chunk.exists_line (chunk : Chunk bufsize) (h : '\n' ∈ chunk.text) :
    ∃ w s, chunk.text = w ++ '\n' :: s ∧ '\n' ∉ w ∧ (w ++ '\n' :: s).length < bufsize := by
  obtain ⟨w, s, heq, hw⟩ := List.eq_append_cons_of_mem h
  exact ⟨w, s, heq, hw, heq ▸ chunk.short⟩

/-- `tmp` is what is behind the last newline of the read. -/
theorem doPacket_snd (arg : CStr → CStr → CStr) (tmp : CStr) (chunk : Chunk bufsize) :
    (doPacket bufsize arg tmp chunk.text).2 = rest '\n' chunk.text := by
  by_cases hmem : '\n' ∈ chunk.text
  · obtain ⟨w, s, heq, hw, hlen⟩ := chunk.exists_line hmem
    rw [heq, doPacket_cut hw hlen, (lines_cut hw s).2]
  · rw [doPacket_of_notMem hmem chunk.ne_nil chunk.short, (lines_of_notMem hmem).2]

end Loop

/-! ### One server, many connections -/

section Server

variable {bufsize : ℕ} {arg : CStr → CStr → CStr} {s s' : State} {e : Event bufsize} {cptr : ℕ}
  {w : CStr}

theorem ofConn_append (cptr : ℕ) (l m : List (ℕ × CStr)) :
    ofConn cptr (l ++ m) = ofConn cptr l ++ ofConn cptr m := by
  unfold ofConn
  rw [List.filter_append, List.map_append]

theorem ofConn_self (cptr : ℕ) (bufs : List CStr) : ofConn cptr (bufs.map fun buf => (cptr, buf)) = bufs := by
  unfold ofConn
  rw [List.filter_eq_self.mpr, List.map_map]
  · exact List.map_id bufs
  · intro p hp
    obtain ⟨buf, -, rfl⟩ := List.mem_map.mp hp
    exact decide_eq_true rfl

theorem ofConn_other {c : ℕ} (h : c ≠ cptr) (bufs : List CStr) :
    ofConn c (bufs.map fun buf => (cptr, buf)) = [] := by
  unfold ofConn
  rw [List.filter_eq_nil_iff.mpr]
  · rfl
  · intro p hp
    obtain ⟨buf, -, rfl⟩ := List.mem_map.mp hp
    simpa using Ne.symm h

/-- A read goes on with the stream of its own connection. -/
theorem stream_read (h : s'.received = s.received ++ [(cptr, w)]) (c : ℕ) :
    stream s' c = if c = cptr then stream s c ++ w else stream s c := by
  unfold stream
  have hone : [(cptr, w)] = [w].map fun buf => (cptr, buf) := rfl
  rw [h, hone, ofConn_append, List.flatten_append]
  by_cases hc : c = cptr
  · rw [if_pos hc, hc, ofConn_self, List.flatten_singleton]
  · rw [if_neg hc, ofConn_other hc, List.flatten_nil, List.append_nil]

/-- The buffer holds what the last read left, and that is short. -/
def Buffered (bufsize : ℕ) (s : State) : Prop := s.tmp = lastRest s ∧ s.tmp.length ≤ bufsize

theorem Buffered.notMem (h : Buffered bufsize s) : '\n' ∉ s.tmp := by
  rw [h.1, lastRest]
  cases s.received.getLast? with
  | none => exact List.not_mem_nil
  | some r => exact notMem_rest '\n' r.2

/-- A step that reads nothing, or a read. -/
theorem step_cases (h : step (doPacket bufsize arg) s e = some s') :
    ((∀ cptr chunk, e ≠ .read cptr (some chunk)) ∧ s'.tmp = s.tmp ∧ s'.out = s.out ∧
      s'.received = s.received) ∨
    ∃ cptr chunk, e = .read cptr (some chunk) ∧ s'.tmp = rest '\n' chunk.text ∧
      s'.out = s.out ++ (doPacket bufsize arg s.tmp chunk.text).1.map (fun buf => (cptr, buf)) ∧
      s'.received = s.received ++ [(cptr, chunk.text)] := by
  cases e with
  | accept =>
    cases h
    exact Or.inl ⟨nofun, rfl, rfl, rfl⟩
  | read cptr chunk =>
    obtain ⟨-, hs'⟩ := Option.ite_none_right_eq_some.mp h
    cases hs'
    cases chunk with
    | none => exact Or.inl ⟨nofun, rfl, rfl, rfl⟩
    | some chunk => exact Or.inr ⟨cptr, chunk, rfl, doPacket_snd arg s.tmp chunk, rfl, rfl⟩

theorem buffered_step (hb : Buffered bufsize s) (h : step (doPacket bufsize arg) s e = some s') :
    Buffered bufsize s' := by
  unfold Buffered lastRest
  rcases step_cases h with ⟨-, htmp, -, hreceived⟩ | ⟨cptr, chunk, -, htmp, -, hreceived⟩
  · rw [htmp, hreceived]
    exact hb
  · have hlen := length_rest_le '\n' chunk.text
    have hshort := chunk.short
    rw [htmp, hreceived, List.getLast?_concat]
    exact ⟨rfl, by omega⟩

/-- **What is printed is right for each connection** exactly as long as each read
is one after which it is right for the connection that was read from. -/
theorem right_iff (F : List CStr → CStr → Prop) (C : State → Event bufsize → Prop) (hinit : F [] [])
    (hskip : ∀ s e, (∀ cptr chunk, e ≠ .read cptr (some chunk)) → C s e)
    (hread : ∀ s cptr chunk, Buffered bufsize s → F (ofConn cptr s.out) (stream s cptr) →
      (C s (.read cptr (some chunk)) ↔
        F (ofConn cptr s.out ++ (doPacket bufsize arg s.tmp chunk.text).1) (stream s cptr ++ chunk.text)))
    (es : List (Event bufsize)) :
    Run.Always (step (doPacket bufsize arg)) (fun s => ∀ cptr, F (ofConn cptr s.out) (stream s cptr)) init es ↔
      Run.Along (step (doPacket bufsize arg)) (fun s e _ => C s e) init es := by
  apply Run.always_iff_along (Buffered bufsize)
  · exact ⟨rfl, Nat.zero_le _⟩
  · exact fun _ => hinit
  · intro s e s' hb hF h
    rcases step_cases h with ⟨hno, -, hout, hreceived⟩ | ⟨cptr, chunk, rfl, -, hout, hreceived⟩
    · refine iff_of_true (hskip s e hno) fun cptr => ?_
      unfold stream
      rw [hout, hreceived]
      exact hF cptr
    · rw [hread s cptr chunk hb (hF cptr)]
      constructor
      · intro hnew c
        rw [hout, ofConn_append, stream_read hreceived]
        by_cases hc : c = cptr
        · rw [if_pos hc, hc, ofConn_self]
          exact hnew
        · rw [if_neg hc, ofConn_other hc, List.append_nil]
          exact hF c
      · intro hall
        have hnew := hall cptr
        rwa [hout, ofConn_append, ofConn_self, stream_read hreceived, if_pos rfl] at hnew
  · exact fun s e s' hb _ h => buffered_step hb h

end Server

/-! ### The echo server -/

section Echo

variable {bufsize : ℕ}

/-- All that is behind the line is printed, and again behind the next one. -/
theorem count_echo {t : CStr} (ht : '\n' ∈ t) (hlen : t.length < bufsize) {n : ℕ} (hn : t.length ≤ n) :
    0 < (packetLoop bufsize Echoserver.arg n [] t).1.flatten.count '\n' := by
  obtain ⟨w, s, rfl, hw⟩ := List.eq_append_cons_of_mem ht
  obtain ⟨m, rfl⟩ : ∃ m, n = m + 1 := by
    rw [List.length_append, List.length_cons] at hn
    exact ⟨n - 1, by omega⟩
  have hfit : snprintf bufsize [] (w ++ '\n' :: s) = w ++ '\n' :: s := by
    apply snprintf_eq
    rw [List.length_nil]
    omega
  rw [packetLoop_cut hw, Echoserver.arg, hfit, List.flatten_cons, List.count_append]
  have hpos : 0 < (w ++ '\n' :: s).count '\n' := List.count_pos_iff.mpr ht
  omega

/-- A read `w`, newline, `t` is echoed as it should be exactly if nothing is behind
the newline and the buffer has what the client's line has so far. -/
theorem echo_line {tmp r w t : CStr} (htmp : '\n' ∉ tmp) (hr : '\n' ∉ r) (hw : '\n' ∉ w)
    (hlen : t.length < bufsize) {n : ℕ} (hn : t.length ≤ n) :
    tmp ++ (w ++ '\n' :: t) ++ (packetLoop bufsize Echoserver.arg n [] t).1.flatten =
        Joined.lead '\n' ((r ++ w) :: lines '\n' t) ↔ t = [] ∧ tmp = r := by
  constructor
  · intro h
    have htmp0 : tmp.count '\n' = 0 := List.count_eq_zero.mpr htmp
    have hr0 : r.count '\n' = 0 := List.count_eq_zero.mpr hr
    have hw0 : w.count '\n' = 0 := List.count_eq_zero.mpr hw
    have hcount := congrArg (List.count '\n') h
    rw [Joined.lead_cons, List.count_append, List.count_append, List.count_append, List.count_append,
      List.count_append, List.count_cons_self, List.count_cons_self, count_lead_lines] at hcount
    have hno : '\n' ∉ t := by
      intro ht
      have hpos := count_echo ht hlen hn
      omega
    rw [packetLoop_of_notMem hno, (lines_of_notMem hno).1, List.flatten_nil, List.append_nil, Joined.lead_cons,
      Joined.lead_nil, ← List.append_assoc] at h
    have htw : '\n' ∉ tmp ++ w := by
      rw [List.mem_append, not_or]
      exact ⟨htmp, hw⟩
    obtain ⟨hsame, ht⟩ := (List.append_cons_inj_of_notMem htw hno).mp h
    exact ⟨ht.2, List.append_cancel_right hsame⟩
  · intro h
    obtain ⟨rfl, rfl⟩ := h
    have hnil : packetLoop bufsize Echoserver.arg n [] [] = ([], [], []) :=
      packetLoop_of_notMem List.not_mem_nil []
    rw [hnil, (lines_of_notMem List.not_mem_nil).1, Joined.lead_cons]
    simp

theorem one_line_iff {w t : CStr} (hw : '\n' ∉ w) :
    (∃ line, w ++ '\n' :: t = line ++ ['\n'] ∧ '\n' ∉ line) ↔ t = [] := by
  constructor
  · intro h
    obtain ⟨line, heq, hline⟩ := h
    exact ((List.append_cons_inj_of_notMem hline List.not_mem_nil).mp heq.symm).2.2.symm
  · intro h
    exact ⟨w, by rw [h], hw⟩

theorem echo_read (s : State) (cptr : ℕ) (chunk : Chunk bufsize) (hb : Buffered bufsize s)
    (hF : (ofConn cptr s.out).flatten = Joined.lead '\n' (lines '\n' (stream s cptr))) :
    EchoMeets s (.read cptr (some chunk)) ↔
      (ofConn cptr s.out ++ (doPacket bufsize Echoserver.arg s.tmp chunk.text).1).flatten =
        Joined.lead '\n' (lines '\n' (stream s cptr ++ chunk.text)) := by
  show ('\n' ∈ chunk.text → _ ∧ lastRest s = rest '\n' (stream s cptr)) ↔ _
  rw [List.flatten_append, hF]
  by_cases hmem : '\n' ∈ chunk.text
  · rw [forall_prop_of_true hmem]
    obtain ⟨w, t, heq, hw, hlen⟩ := chunk.exists_line hmem
    have ht : t.length < bufsize := by
      rw [List.length_append, List.length_cons] at hlen
      omega
    have hfit : snprintf bufsize s.tmp (w ++ '\n' :: t) = s.tmp ++ (w ++ '\n' :: t) := by
      have hle := hb.2
      exact snprintf_eq (by omega)
    rw [heq, one_line_iff hw, ← hb.1, doPacket_cut hw hlen, (lines_append_cut hw _ t).1]
    show _ ↔ _ ++ (snprintf bufsize s.tmp (w ++ '\n' :: t) :: _).flatten = _
    rw [Joined.lead_append, List.append_cancel_left_eq, List.flatten_cons, hfit]
    exact (echo_line hb.notMem (notMem_rest '\n' (stream s cptr)) hw ht (Nat.le_add_left ..)).symm
  · rw [doPacket_of_notMem hmem chunk.ne_nil chunk.short, (lines_append_of_notMem hmem _).1, List.flatten_nil,
      List.append_nil]
    exact iff_of_true (fun h => absurd h hmem) rfl

/-- Where nothing is read nothing is asked. -/
theorem echo_skip (s : State) (e : Event bufsize) (h : ∀ cptr chunk, e ≠ .read cptr (some chunk)) :
    EchoMeets s e := by
  unfold EchoMeets
  split
  · exact absurd rfl (h _ _)
  · trivial

end Echo

/-- **The echo server** queues for each client its complete lines exactly as long as
each read meets the condition. -/
theorem echoed_iff (bufsize : ℕ) (es : List (Event bufsize)) :
    Run.Always (step (Echoserver.doPacket bufsize)) Echoed init es ↔
      Run.Along (step (Echoserver.doPacket bufsize)) (fun s e _ => EchoMeets s e) init es :=
  right_iff (fun out str => out.flatten = Joined.lead '\n' (lines '\n' str)) EchoMeets rfl echo_skip echo_read es

/-! ### The listener demo -/

section Demo

variable {bufsize : ℕ}

theorem length_stripCr_le (line : CStr) : (stripCr line).length ≤ line.length := by
  unfold stripCr
  split
  · rw [List.length_dropLast]
    omega
  · exact Nat.le_refl _

/-- The carriage return is looked for at the end. -/
theorem stripCr_append (r w : CStr) : stripCr (r ++ w) = if w = [] then stripCr r else r ++ stripCr w := by
  split
  · rename_i h
    rw [h, List.append_nil]
  · rename_i h
    unfold stripCr
    rw [List.getLast?_append_of_ne_nil r h]
    split
    · exact List.dropLast_append_of_ne_nil h
    · rfl

/-- Lines that begin in the read are logged as they are. -/
theorem demo_lines (t : CStr) : ∀ {n : ℕ}, t.length < bufsize → t.length ≤ n →
    (packetLoop bufsize Listenerdemo.arg n [] t).1 = (lines '\n' t).map stripCr := by
  induction t using line_induction '\n' with
  | hrest w hw =>
    intro n _ _
    rw [packetLoop_of_notMem hw, (lines_of_notMem hw).1]
    rfl
  | hline w s hw ih =>
    intro n hlen hn
    rw [List.length_append, List.length_cons] at hlen hn
    obtain ⟨m, rfl⟩ : ∃ m, n = m + 1 := ⟨n - 1, by omega⟩
    have hle := length_stripCr_le w
    have hfit : snprintf bufsize [] (stripCr w) = stripCr w := by
      apply snprintf_eq
      rw [List.length_nil]
      omega
    rw [packetLoop_cut hw, (lines_cut hw s).1, Listenerdemo.arg, hfit, ih (by omega) (by omega)]
    rfl

theorem demo_read (s : State) (cptr : ℕ) (chunk : Chunk bufsize) (hb : Buffered bufsize s)
    (hF : ofConn cptr s.out = (lines '\n' (stream s cptr)).map stripCr) :
    DemoMeets s (.read cptr (some chunk)) ↔
      ofConn cptr s.out ++ (doPacket bufsize Listenerdemo.arg s.tmp chunk.text).1 =
        (lines '\n' (stream s cptr ++ chunk.text)).map stripCr := by
  show ('\n' ∈ chunk.text → lastRest s = _) ↔ _
  rw [hF]
  by_cases hmem : '\n' ∈ chunk.text
  · rw [forall_prop_of_true hmem]
    obtain ⟨w, t, heq, hw, hlen⟩ := chunk.exists_line hmem
    have hsum := hlen
    rw [List.length_append, List.length_cons] at hsum
    have hfit : snprintf bufsize s.tmp (stripCr w) = s.tmp ++ stripCr w := by
      have hle := hb.2
      have hstrip := length_stripCr_le w
      exact snprintf_eq (by omega)
    have hhead : (w ++ '\n' :: t).head? = some '\n' ↔ w = [] := by
      cases w with
      | nil => simp
      | cons c w =>
        have hc : c ≠ '\n' := fun h => hw (by simp [h])
        simp [hc]
    rw [heq, ← hb.1, doPacket_cut hw hlen, (lines_append_cut hw _ t).1]
    show _ ↔ _ ++ snprintf bufsize s.tmp (stripCr w) :: _ = _
    rw [hfit, demo_lines t (by omega) (Nat.le_add_left ..), List.map_append, List.append_cancel_left_eq,
      List.map_cons, List.cons.injEq, and_iff_left rfl, stripCr_append]
    by_cases hempty : w = []
    · rw [if_pos (hhead.mpr hempty), if_pos hempty, hempty]
      show _ ↔ s.tmp ++ [] = _
      rw [List.append_nil]
    · rw [if_neg (mt hhead.mp hempty), if_neg hempty, List.append_cancel_right_eq]
  · rw [doPacket_of_notMem hmem chunk.ne_nil chunk.short, (lines_append_of_notMem hmem _).1, List.append_nil]
    exact iff_of_true (fun h => absurd h hmem) rfl

theorem demo_skip (s : State) (e : Event bufsize) (h : ∀ cptr chunk, e ≠ .read cptr (some chunk)) :
    DemoMeets s e := by
  unfold DemoMeets
  split
  · exact absurd rfl (h _ _)
  · trivial

end Demo

/-- **The listener demo** logs of each connection its complete lines exactly as long
as each read meets the condition. -/
theorem logged_iff (bufsize : ℕ) (es : List (Event bufsize)) :
    Run.Always (step (Listenerdemo.doPacket bufsize)) Logged init es ↔
      Run.Along (step (Listenerdemo.doPacket bufsize)) (fun s e _ => DemoMeets s e) init es :=
  right_iff (fun out str => out = (lines '\n' str).map stripCr) DemoMeets rfl demo_skip demo_read es

/-- **Both servers.** -/
theorem line_servers_iff (bufsize : ℕ) (es : List (Event bufsize)) :
    (Run.Always (step (Echoserver.doPacket bufsize)) Echoed init es ↔
      Run.Along (step (Echoserver.doPacket bufsize)) (fun s e _ => EchoMeets s e) init es) ∧
    (Run.Always (step (Listenerdemo.doPacket bufsize)) Logged init es ↔
      Run.Along (step (Listenerdemo.doPacket bufsize)) (fun s e _ => DemoMeets s e) init es) :=
  ⟨echoed_iff bufsize es, logged_iff bufsize es⟩

/-- Two lines in one read are echoed as three, and what one client began another one
ends. -/
theorem lines_mixed_up :
    ¬ Run.Always (step (Echoserver.doPacket 1024)) Echoed init
        [.accept, .read 0 (some (⟨"a\nb\n".toList, by decide, by decide, by decide⟩ : Chunk 1024))] ∧
    ¬ Run.Always (step (Listenerdemo.doPacket 1024)) Logged init
        [.accept, .accept, .read 0 (some (⟨"a".toList, by decide, by decide, by decide⟩ : Chunk 1024)),
          .read 1 (some (⟨"b\n".toList, by decide, by decide, by decide⟩ : Chunk 1024))] := by
  constructor
  · intro h
    have hsent := h.of_exec rfl 0
    revert hsent
    decide
  · intro h
    have hlogged := h.of_exec rfl 1
    revert hlogged
    decide

end LineServers
end AthemeContrib
