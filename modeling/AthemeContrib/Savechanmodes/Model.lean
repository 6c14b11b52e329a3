/-
# os_savechanmodes: channel modes on file

`SAVECHANMODES` writes a line for each channel, its topic and each of its bans
to a file, `LOADCHANMODES` reads the file back line by line with `strtok`:
blanks end the words in front, and the rest of the line is one field. The
channel that topics and bans go to is the one of the last `chan` line.

What the module does to the network it does by calls of the core: the calls
are recorded, in their order, and the core is a parameter that says what they
come to. What is relied on of it is `Lawful` and `Splits`.

Key definitions: `Channel`, `Call`, `Services`, `Lawful`, `dumpChannel`,
`osCmdSavechanmodes`, `restoreChannel`, `loadLine`, `osCmdLoadchanmodes`.
Key theorems: `run_find`, `run_others`, `load_file`.
-/
import AthemeContrib.Command
import Mathlib.Logic.Function.Basic

namespace AthemeContrib
namespace Savechanmodes

open CStr

/-- A topic and who set it. -/
structure Topic where
  topic : CStr
  setter : CStr
deriving DecidableEq, Repr

/-- A ban: its mode letter and its mask. -/
structure Chanban where
  type : Char
  mask : CStr
deriving DecidableEq, Repr

/-- The fields of `channel_t` that are read when modes are loaded; `topicts` is
the unsigned long that it is written as. -/
structure Contents where
  topic : Option Topic
  topicts : ℕ
  bans : List Chanban
deriving DecidableEq, Repr

/-- `channel_t`, as it is written: `modes` is what `channel_modes(c, true)`
returns. -/
structure Channel extends Contents where
  name : CStr
  modes : CStr
deriving DecidableEq, Repr

/-- What is called to change the network or to send something about it; the
mode of a ban is added (`MTYPE_ADD`). -/
inductive Call (χ : Type)
  | join (name : CStr) (nick : String)
  | channelMode (source : String) (c : χ) (modeparv : List CStr)
  | handleTopic (c : χ) (setter : CStr) (ts : ℕ) (topic : CStr)
  | topicSts (c : χ) (source : String) (setter : CStr) (ts prevts : ℕ) (topic : CStr)
  | modestackModeParam (source : String) (c : χ) (type : Char) (mask : CStr)
  | chanbanAdd (c : χ) (mask : CStr) (type : Char)
deriving DecidableEq, Repr

/-- The channel that a call is about; a channel is joined by its name. -/
def Call.chan {χ : Type} : Call χ → Option χ
  | .join _ _ => none
  | .channelMode _ c _ | .handleTopic c _ _ _ | .topicSts c _ _ _ _ _ | .modestackModeParam _ c _ _
  | .chanbanAdd c _ _ => some c

/-- What the module uses of the core, over its networks `σ` and their channels
`χ`: what a call comes to, `channel_find`, the fields of a channel, `sjtoken`
and `strip`, the OperServ service if there is one, ChanServ, the name of who
gives the command and `DATADIR`. -/
structure Services (σ χ : Type) extends Core where
  exec : Call χ → σ → σ
  channelFind : σ → CStr → Option χ
  contents : σ → χ → Contents
  sjtoken : CStr → Char → List CStr
  strip : CStr → CStr
  operserv : Option String
  chansvs : String
  operName : String
  datadir : String
  /-- Channels of these names are created when they are joined. -/
  joinable : CStr → Bool
  /-- What is kept of the setter of a topic. -/
  newsetter : CStr → CStr
  /-- The modes that are lists. -/
  banLikeModes : CStr

variable {σ χ : Type}

def Services.path (sv : Services σ χ) : String := sv.datadir ++ "/chanmodes.txt"

/-! ### SAVECHANMODES -/

/-- `fprintf(out, "topic %s %lu %s\n", ..)`, if there is a topic. -/
def dumpTopic (c : Channel) : CStr :=
  match c.topic with
  | none => []
  | some t => "topic ".toList ++ t.setter ++ ' ' :: Nat.toDigits 10 c.topicts ++ ' ' :: t.topic ++ ['\n']

/-- `fprintf(out, "ban %c %s\n", ..)` -/
def dumpBan (cb : Chanban) : CStr := "ban ".toList ++ cb.type :: ' ' :: cb.mask ++ ['\n']

/-- What is written of a channel. -/
def dumpChannel (c : Channel) : CStr :=
  "chan ".toList ++ c.name ++ ' ' :: c.modes ++ ['\n'] ++ dumpTopic c ++ c.bans.flatMap dumpBan

/-- `SAVECHANMODES`: the file afterwards, and what is sent; `error` is why the
file cannot be opened. -/
def osCmdSavechanmodes (sv : Services σ χ) (error : Option String) (chanlist : List Channel)
    (file : Option CStr) : Option CStr × List Output :=
  match error with
  | some e => (file, [.fail .nosuch_source s!"Cannot open {sv.path}: {e}"])
  | none => (some (chanlist.flatMap dumpChannel),
    [.wallops s!"\x02{sv.operName}\x02 is dumping channel modes",
      .success s!"Channel modes saved to {sv.path}."])

/-! ### LOADCHANMODES -/

/-- The network, the current channel and the calls that have been made;
`overrun` says that more has been written to `modeparv` than it holds. What
follows is then what an array that is long enough would give. -/
structure Load (σ χ : Type) where
  net : σ
  c : Option χ
  calls : List (Call χ)
  overrun : Bool

/-- Before the first line. -/
def Load.start (net : σ) : Load σ χ := ⟨net, none, [], false⟩

/-- What one call after the other comes to. -/
def Services.run (sv : Services σ χ) (xs : List (Call χ)) (net : σ) : σ :=
  xs.foldl (fun net x => sv.exec x net) net

/-- Calls are made. -/
def Load.call (sv : Services σ χ) (s : Load σ χ) (xs : List (Call χ)) : Load σ χ :=
  { s with net := sv.run xs s.net, calls := s.calls ++ xs }

/-- The size of `modeparv`. -/
def modeparvSize : ℕ := 256

/-- Who sets modes: OperServ, or else ChanServ. -/
def Services.svs (sv : Services σ χ) : String := sv.operserv.getD sv.chansvs

/-- `restore_channel(name, modes)`: the channel is the current one. -/
def restoreChannel (sv : Services σ χ) (name modes : CStr) (s : Load σ χ) : Load σ χ :=
  let s := s.call sv [.join name sv.chansvs]
  match sv.channelFind s.net name with
  | none => { s with c := none }
  | some c =>
    let modeparv := sv.sjtoken modes ' '
    let s := { s with overrun := s.overrun || decide (modeparvSize < modeparv.length) }
    { s.call sv [.channelMode sv.svs c modeparv] with c := some c }

/-- A line that starts with `chan`; `saved` is the rest of it. -/
def loadChan (sv : Services σ χ) (saved : CStr) (s : Load σ χ) : Load σ χ :=
  let (name, saved) := strtok none [' '] saved
  let (modes, _) := strtok none ['\n'] saved
  match name, modes with
  | some name, some modes => restoreChannel sv name modes s
  | _, _ => s

/-- A line that starts with `topic`. -/
def loadTopic (sv : Services σ χ) (saved : CStr) (s : Load σ χ) : Load σ χ :=
  match s.c with
  | none => s
  | some c =>
    let (setter, saved) := strtok none [' '] saved
    let (tsstr, saved) := strtok none [' '] saved
    let (topic, _) := strtok none ['\n'] saved
    match setter, tsstr, topic with
    | some setter, some tsstr, some topic =>
      if (sv.contents s.net c).topic.isSome then s
      else
        let prevtopicts := (sv.contents s.net c).topicts
        let ts := strtoul tsstr
        s.call sv [.handleTopic c setter ts topic, .topicSts c sv.chansvs setter ts prevtopicts topic]
    | _, _, _ => s

/-- A line that starts with `ban`. -/
def loadBan (sv : Services σ χ) (saved : CStr) (s : Load σ χ) : Load σ χ :=
  match s.c with
  | none => s
  | some c =>
    let (type, saved) := strtok none [' '] saved
    let (mask, _) := strtok none ['\n'] saved
    match type, mask with
    | some type, some mask =>
      let type := type.headD '\x00'
      s.call sv [.modestackModeParam sv.chansvs c type mask, .chanbanAdd c mask type]
    | _, _ => s

/-- One line of the file. -/
def loadLine (sv : Services σ χ) (buf : CStr) (s : Load σ χ) : Load σ χ :=
  match strtok (some buf) [' '] [] with
  | (none, _) => s
  | (some item, saved) =>
    let item := sv.strip item
    if item.head? = some '#' then s
    else if item = "chan".toList then loadChan sv saved s
    else if item = "topic".toList then loadTopic sv saved s
    else if item = "ban".toList then loadBan sv saved s
    else s

/-- The size of `buf`. -/
def bufSize : ℕ := 2048

/-- The loop over the lines, within `n` passes. -/
def loadLoop (sv : Services σ χ) : ℕ → CStr → Load σ χ → Load σ χ
  | 0, _, s => s
  | n + 1, file, s =>
    match fgets bufSize file with
    | none => s
    | some (buf, file) => loadLoop sv n file (loadLine sv (cstr buf) s)

/-- The lines of the file are loaded; a pass reads at least one character. -/
def loadFile (sv : Services σ χ) (file : CStr) (s : Load σ χ) : Load σ χ :=
  loadLoop sv (file.length + 1) file s

/-- `LOADCHANMODES`; `file` is why the file cannot be opened, or what it
holds. -/
def osCmdLoadchanmodes (sv : Services σ χ) (file : Except String CStr) (net : σ) : Load σ χ × List Output :=
  match file with
  | .error e => (.start net, [.fail .nosuch_source s!"Cannot open {sv.path}: {e}"])
  | .ok file => (loadFile sv file (.start net),
    [.wallops s!"\x02{sv.operName}\x02 is restoring channel modes",
      .success s!"Channel modes restored from {sv.path}.",
      .success (s!"Remember to restart services to make {sv.chansvs} leave channels it should not " ++
        "be in.")])

/-! ### The core -/

/-- What is relied on of the calls. -/
structure Lawful (sv : Services σ χ) : Prop where
  /-- A channel is found by its name, in any case. -/
  same : ∀ {net n n' c}, sv.channelFind net n = some c →
    (sv.channelFind net n' = some c ↔ sv.irccasecmp n n' = true)
  /-- Joining leaves the channels that are there as they are. -/
  join_there : ∀ {net n c}, sv.channelFind net n = some c → ∀ name nick,
    sv.channelFind (sv.exec (.join name nick) net) n = some c ∧
      sv.contents (sv.exec (.join name nick) net) c = sv.contents net c
  /-- It creates no channel but the one of the name. -/
  join_new : ∀ {net n}, sv.channelFind net n = none → ∀ name nick,
    (sv.channelFind (sv.exec (.join name nick) net) n).isSome = (sv.joinable name && sv.irccasecmp name n)
  /-- A channel that is created has no topic and no bans. -/
  join_created : ∀ {net n c name nick}, sv.channelFind net n = none →
    sv.channelFind (sv.exec (.join name nick) net) n = some c →
    (sv.contents (sv.exec (.join name nick) net) c).topic = none ∧
      (sv.contents (sv.exec (.join name nick) net) c).bans = []
  /-- The other calls create and destroy no channel. -/
  exec_find : ∀ {x : Call χ} {c}, x.chan = some c → ∀ net n,
    sv.channelFind (sv.exec x net) n = sv.channelFind net n
  /-- They change no channel but their own. -/
  exec_others : ∀ {x : Call χ} {c c'}, x.chan = some c → c' ≠ c → ∀ net,
    sv.contents (sv.exec x net) c' = sv.contents net c'
  /-- Modes are neither topics nor bans, but for the modes that are lists. -/
  channelMode : ∀ net u c words, let k := sv.contents (sv.exec (.channelMode u c words) net) c
    k.topic = (sv.contents net c).topic ∧ k.topicts = (sv.contents net c).topicts ∧
      ((∀ x ∈ words.headD [], x ∉ sv.banLikeModes) → k.bans = (sv.contents net c).bans)
  /-- A channel without a topic gets the topic. -/
  handleTopic : ∀ {net c}, (sv.contents net c).topic = none → ∀ setter ts topic,
    sv.contents (sv.exec (.handleTopic c setter ts topic) net) c =
      { sv.contents net c with topic := some ⟨topic, sv.newsetter setter⟩, topicts := ts }
  /-- What is only sent changes nothing here. -/
  topicSts : ∀ net c source setter ts prevts topic,
    sv.contents (sv.exec (.topicSts c source setter ts prevts topic) net) c = sv.contents net c
  modestackModeParam : ∀ net source c type mask,
    sv.contents (sv.exec (.modestackModeParam source c type mask) net) c = sv.contents net c
  /-- A ban that is not there yet is added behind the others. -/
  chanbanAdd : ∀ net c mask type, let k := sv.contents (sv.exec (.chanbanAdd c mask type) net) c
    k.topic = (sv.contents net c).topic ∧ k.topicts = (sv.contents net c).topicts ∧
      ((∀ cb ∈ (sv.contents net c).bans, cb.type = type → sv.irccasecmp cb.mask mask = false) →
        k.bans = (sv.contents net c).bans ++ [⟨type, mask⟩])

/-- What is relied on of `sjtoken` and `strip`: up to 256 words are split at the
blanks, and a line that ends nowhere before is left as it is. -/
structure Splits (sv : Services σ χ) : Prop where
  sjtoken : ∀ {modes}, (tokens [' '] modes).length ≤ modeparvSize → sv.sjtoken modes ' ' = tokens [' '] modes
  strip : ∀ {line : CStr}, (∀ x ∈ line, x ∉ ['\n', '\x0d', '\x01']) → sv.strip line = line

variable {sv : Services σ χ}

theorem Lawful.congr (h : Lawful sv) (net : σ) {n n' : CStr} (hn : sv.irccasecmp n n' = true) :
    sv.channelFind net n = sv.channelFind net n' := by
  cases hfind : sv.channelFind net n with
  | some c => exact ((h.same hfind).mpr hn).symm
  | none =>
    cases hfind' : sv.channelFind net n' with
    | none => rfl
    | some c =>
      rw [irccasecmp_comm] at hn
      rw [(h.same hfind').mpr hn] at hfind
      cases hfind

@[simp] theorem run_nil (net : σ) : sv.run [] net = net := rfl

@[simp] theorem run_cons (x : Call χ) (xs : List (Call χ)) (net : σ) :
    sv.run (x :: xs) net = sv.run xs (sv.exec x net) := rfl

theorem run_append (xs ys : List (Call χ)) (net : σ) : sv.run (xs ++ ys) net = sv.run ys (sv.run xs net) :=
  List.foldl_append

theorem Load.call_call (s : Load σ χ) (xs ys : List (Call χ)) : (s.call sv xs).call sv ys = s.call sv (xs ++ ys) := by
  simp [Load.call, run_append]

/-- Calls about a channel find the same channels. -/
theorem run_find (h : Lawful sv) {c : χ} (n : CStr) : ∀ {xs : List (Call χ)} {net : σ},
    (∀ x ∈ xs, x.chan = some c) → sv.channelFind (sv.run xs net) n = sv.channelFind net n
  | [], _, _ => rfl
  | x :: xs, net, hc => by
    rw [run_cons, run_find h n fun y hy => hc y (List.mem_cons_of_mem x hy), h.exec_find (hc x (by simp))]

/-- **Calls about a channel change no other.** -/
theorem run_others (h : Lawful sv) {c c' : χ} (hne : c' ≠ c) : ∀ {xs : List (Call χ)} {net : σ},
    (∀ x ∈ xs, x.chan = some c) → sv.contents (sv.run xs net) c' = sv.contents net c'
  | [], _, _ => rfl
  | x :: xs, net, hc => by
    rw [run_cons, run_others h hne fun y hy => hc y (List.mem_cons_of_mem x hy),
      h.exec_others (hc x (by simp)) hne]

/-! ### Lines -/

theorem loadLoop_lines : ∀ {lines : List CStr} {file : CStr} {n : ℕ} {s : Load σ χ}, fileLines file = lines →
    (∀ line ∈ lines, line.length ≤ 2047) → file.length < n →
    loadLoop sv n file s = lines.foldl (fun s line => loadLine sv (cstr line) s) s
  | [], file, n, s, h, _, hn => by
    obtain ⟨m, rfl⟩ : ∃ m, n = m + 1 := ⟨n - 1, by omega⟩
    rw [fileLines_eq_nil.mp h]
    rfl
  | line :: lines, file, n, s, h, hfit, hn => by
    obtain ⟨m, rfl⟩ : ∃ m, n = m + 1 := ⟨n - 1, by omega⟩
    obtain ⟨rest, hloop, hfile, hne, hrest⟩ := fgetsLoop_line h (hfit line (by simp))
    have hread : fgets bufSize file = some (line, rest) := by
      rw [fgets, if_neg (by simp [hfile, hne])]
      exact congrArg some hloop
    have hpos : 0 < line.length := List.length_pos_iff.mpr hne
    rw [hfile, List.length_append] at hn
    rw [loadLoop, hread]
    simp only [List.foldl_cons]
    exact loadLoop_lines hrest (fun l hl => hfit l (List.mem_cons_of_mem line hl)) (by omega)

/-- **The lines of a file are loaded one by one**, if they fit. -/
theorem load_file {file : CStr} (h : ∀ line ∈ fileLines file, line.length ≤ 2047) (s : Load σ χ) :
    loadFile sv file s = (fileLines file).foldl (fun s line => loadLine sv (cstr line) s) s :=
  loadLoop_lines rfl h (Nat.lt_succ_self _)

/-! ### A core -/

/-- A network: the channels that are there, and what they have. -/
structure Net where
  there : CStr → Bool
  contents : CStr → Contents

/-- A network without channels. -/
def noChannels : Net := ⟨fun _ => false, fun _ => ⟨none, 0, []⟩⟩

/-- The channel `c` is changed. -/
def Net.update (net : Net) (c : CStr) (f : Contents → Contents) : Net :=
  { net with contents := Function.update net.contents c (f (net.contents c)) }

/-- A ban is added, if it is not there yet. -/
def addBan (lower : Char → Char) (cb : Chanban) (k : Contents) : Contents :=
  if k.bans.any fun cb' => cb'.type = cb.type ∧ cb'.mask.map lower = cb.mask.map lower then k
  else { k with bans := k.bans ++ [cb] }

/-- What the calls come to; a channel is its name in lower case. -/
def Net.exec (net : Net) : Call CStr → Net
  | .join name _ =>
    let c := name.map Char.toLower
    if net.there c then net
    else ⟨Function.update net.there c true, Function.update net.contents c ⟨none, 0, []⟩⟩
  | .channelMode _ _ _ | .topicSts _ _ _ _ _ _ | .modestackModeParam _ _ _ _ => net
  | .handleTopic c setter ts topic => net.update c fun k => { k with topic := some ⟨topic, setter⟩, topicts := ts }
  | .chanbanAdd c mask type => net.update c (addBan Char.toLower ⟨type, mask⟩)

/-- A core on which every channel can be joined. -/
def anyChannel : Services Net CStr where
  lower := Char.toLower
  strftime _ := ""
  exec x net := net.exec x
  channelFind net name := if net.there (name.map Char.toLower) then some (name.map Char.toLower) else none
  contents := Net.contents
  sjtoken modes _ := tokens [' '] modes
  strip := AthemeContrib.strip
  operserv := some "OperServ"
  chansvs := "ChanServ"
  operName := "oper"
  datadir := "/var"
  joinable _ := true
  newsetter := id
  banLikeModes := "beI".toList

theorem anyChannel_find {net : Net} {n c : CStr} : anyChannel.channelFind net n = some c ↔
    net.there c = true ∧ n.map Char.toLower = c := by
  show (if net.there (n.map Char.toLower) then some (n.map Char.toLower) else none) = some c ↔ _
  constructor
  · intro h
    split at h
    next hthere => exact Option.some.inj h ▸ ⟨hthere, rfl⟩
    next => cases h
  · rintro ⟨hthere, rfl⟩
    rw [if_pos hthere]

theorem anyChannel_find_none {net : Net} {n : CStr} : anyChannel.channelFind net n = none ↔
    net.there (n.map Char.toLower) = false := by
  show (if net.there (n.map Char.toLower) then some (n.map Char.toLower) else none) = none ↔ _
  cases net.there (n.map Char.toLower) <;> simp

/-- A channel that is joined is there and empty, if it was not there. -/
theorem join_exec (net : Net) (name : CStr) (nick : String) : anyChannel.exec (.join name nick) net =
    if net.there (name.map Char.toLower) then net
    else ⟨Function.update net.there (name.map Char.toLower) true,
      Function.update net.contents (name.map Char.toLower) ⟨none, 0, []⟩⟩ := rfl

theorem join_there (net : Net) (name : CStr) (nick : String) (c : CStr) :
    (anyChannel.exec (.join name nick) net).there c = (net.there c || decide (name.map Char.toLower = c)) := by
  rw [join_exec]
  by_cases hc : name.map Char.toLower = c
  · rw [hc, decide_eq_true rfl, Bool.or_true]
    split
    next hthere => exact hthere
    next => exact Function.update_self _ _ _
  · rw [decide_eq_false hc, Bool.or_false]
    split
    next => rfl
    next => exact Function.update_of_ne (Ne.symm hc) _ _

/-- What is there stays as it is. -/
theorem join_contents {net : Net} {c : CStr} (h : net.there c = true) (name : CStr) (nick : String) :
    (anyChannel.exec (.join name nick) net).contents c = net.contents c := by
  rw [join_exec]
  split
  next => rfl
  next hk =>
    refine Function.update_of_ne ?_ _ _
    rintro rfl
    exact hk h

/-- The other calls change what their channel has. -/
theorem exec_update {x : Call CStr} {c : CStr} (h : x.chan = some c) (net : Net) :
    ∃ f, anyChannel.exec x net = net.update c f := by
  have hid : ∀ c, net.update c id = net := by
    intro c
    simp [Net.update]
  cases x with
  | join name nick => cases h
  | channelMode u c words => exact ⟨id, (hid _).symm⟩
  | handleTopic c' setter ts topic =>
    obtain rfl := Option.some.inj h
    exact ⟨fun k => { k with topic := some ⟨topic, setter⟩, topicts := ts }, rfl⟩
  | topicSts c' source setter ts prevts topic => exact ⟨id, (hid _).symm⟩
  | modestackModeParam source c' type mask => exact ⟨id, (hid _).symm⟩
  | chanbanAdd c' mask type =>
    obtain rfl := Option.some.inj h
    exact ⟨addBan Char.toLower ⟨type, mask⟩, rfl⟩

theorem addBan_new {lower : Char → Char} {cb : Chanban} {k : Contents}
    (h : ∀ cb' ∈ k.bans, cb'.type = cb.type → cb'.mask.map lower ≠ cb.mask.map lower) :
    addBan lower cb k = { k with bans := k.bans ++ [cb] } := by
  unfold addBan
  rw [if_neg]
  simpa using h

theorem anyChannel_lawful : Lawful anyChannel where
  same h := by
    obtain ⟨hthere, rfl⟩ := anyChannel_find.mp h
    rw [anyChannel_find, irccasecmp_iff]
    exact ⟨fun h => h.2.symm, fun h => ⟨hthere, h.symm⟩⟩
  join_there h name nick := by
    obtain ⟨hthere, rfl⟩ := anyChannel_find.mp h
    rw [anyChannel_find, join_there, hthere]
    exact ⟨⟨rfl, rfl⟩, join_contents hthere name nick⟩
  join_new {net n} h name nick := by
    rw [anyChannel_find_none] at h
    show _ = anyChannel.irccasecmp name _
    rw [Bool.eq_iff_iff, Option.isSome_iff_exists, irccasecmp_iff]
    simp only [anyChannel_find, join_there]
    constructor
    · rintro ⟨c, hthere, rfl⟩
      rw [h, Bool.false_or, decide_eq_true_iff] at hthere
      exact hthere
    · intro heq
      have hname : name.map Char.toLower = n.map Char.toLower := heq
      exact ⟨_, by rw [decide_eq_true hname, Bool.or_true], rfl⟩
  join_created {net n c name nick} h hc := by
    rw [anyChannel_find_none] at h
    obtain ⟨hthere, rfl⟩ := anyChannel_find.mp hc
    rw [join_there, h, Bool.false_or, decide_eq_true_iff] at hthere
    have hempty : (anyChannel.exec (.join name nick) net).contents (n.map Char.toLower) = ⟨none, 0, []⟩ := by
      rw [join_exec, hthere, if_neg (by rw [h]; exact Bool.false_ne_true)]
      exact Function.update_self _ _ _
    show Contents.topic (Net.contents _ _) = none ∧ Contents.bans (Net.contents _ _) = []
    rw [hempty]
    exact ⟨rfl, rfl⟩
  exec_find h net n := by
    obtain ⟨f, hf⟩ := exec_update h net
    rw [hf]
    rfl
  exec_others h hne net := by
    obtain ⟨f, hf⟩ := exec_update h net
    rw [hf]
    exact Function.update_of_ne hne _ _
  channelMode net u c words := ⟨rfl, rfl, fun _ => rfl⟩
  handleTopic _ _ _ _ := Function.update_self _ _ _
  topicSts _ _ _ _ _ _ _ := rfl
  modestackModeParam _ _ _ _ _ := rfl
  chanbanAdd net c mask type := by
    have hban : anyChannel.contents (anyChannel.exec (.chanbanAdd c mask type) net) c =
        addBan Char.toLower ⟨type, mask⟩ (net.contents c) := Function.update_self _ _ _
    rw [hban]
    refine ⟨?_, ?_, fun hnew => ?_⟩
    · unfold addBan
      split <;> rfl
    · unfold addBan
      split <;> rfl
    · rw [addBan_new]
      · rfl
      · intro cb hcb ht heq
        have hdiff := hnew cb hcb ht
        rw [Bool.eq_false_iff] at hdiff
        exact hdiff (irccasecmp_iff.mpr heq)

theorem anyChannel_splits : Splits anyChannel where
  sjtoken _ := rfl
  strip h := by
    show AthemeContrib.strip _ = _
    unfold AthemeContrib.strip
    rw [List.takeWhile_eq_self_iff]
    simpa using h

end Savechanmodes
end AthemeContrib
