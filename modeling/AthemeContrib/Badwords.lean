/-
# cs_badwords: the bad words of the channels

Each registered channel has a list of bad words, `BADWORDS` changes it, and it
is saved as rows of the type `BW`. A row that is loaded is read field by
field, and an entry is added to the list of every channel it names, which is
none if no such channel is registered.

Key definitions: `Badword`, `Channel`, `csCmdBadwords`, `writeBadwordDb`,
`dbHBw`, `Cmd.op`.
Key theorems: `csCmdBadwords_edited`, `mychanFind_run`, `csCmdBadwords_writable`,
`dbHBw_row`, `regroup`.
-/
import AthemeContrib.Command
import AthemeContrib.Lib.Rows

namespace AthemeContrib
namespace Badwords

open CStr Rows

structure Badword where
  badword : CStr
  addTs : ℕ
  creator : CStr
  channel : CStr
  action : CStr
deriving DecidableEq, Repr

/-- A registered channel and its "badword:list". -/
structure Channel where
  name : CStr
  badwords : List Badword
deriving DecidableEq, Repr

/-- `db_h_bw` -/
def dbHBw (B : Backend) (core : Core) (mclist : List Channel) : RowReader B (List Channel) := do
  let badword ← B.sreadWord
  let addTs ← B.sreadTime
  let creator ← B.sreadWord
  let channel ← B.sreadWord
  let action ← B.sreadWord
  return mclist.map fun mc =>
    if core.irccasecmp mc.name channel then
      { mc with badwords := mc.badwords ++ [⟨badword, addTs, creator, channel, action⟩] }
    else mc

/-- The row of one bad word. -/
def badwordRow (bw : Badword) : Row :=
  let row := startRow "BW".toList
  let row := writeWord row bw.badword
  let row := writeTime row bw.addTs
  let row := writeWord row bw.creator
  let row := writeWord row bw.channel
  writeWord row bw.action

/-- `write_badword_db` -/
def writeBadwordDb (mclist : List Channel) : List Row := mclist.flatMap fun mc => mc.badwords.map badwordRow

/-! ### BADWORDS -/

/-- Whether the source of a command has `CA_SET` and `CA_ACLVIEW` on the
channel that the command names. -/
structure Access where
  caSet : Bool
  caAclview : Bool
deriving DecidableEq, Repr

/-- The actions `ADD` takes; `QUIET` only if the IRC daemon has a mode for it. -/
def isAction (banLikeModes : Option CStr) (action : CStr) : Bool :=
  strcasecmp "KICK".toList action || strcasecmp "KICKBAN".toList action || strcasecmp "WARN".toList action ||
    strcasecmp "BAN".toList action ||
    (strcasecmp "QUIET".toList action && banLikeModes.any fun modes => 'q' ∈ modes)

def badwordsSyntax : Output :=
  .fail .needmoreparams "Syntax: BADWORDS <#channel> ADD|DEL|LIST [badword] [action]"

/-- `BADWORDS channel ADD word action`: the list afterwards. -/
def badwordsAdd (core : Core) (banLikeModes : Option CStr) (si : Source) (access : Access) (now : ℕ)
    (word action : Option CStr) (mc : Channel) : List Badword × List Output :=
  match word, action with
  | some word, some action =>
    if !access.caSet then (mc.badwords, [.fail .noprivs STR_NOT_AUTHORIZED])
    else if isAction banLikeModes action then
      if mc.badwords.any fun bw => core.irccasecmp bw.badword word then
        (mc.badwords, [.success
          s!"\x02{String.ofList word}\x02 has already been entered into the bad word list."])
      else
        (mc.badwords ++ [⟨word, now, si.name, mc.name, action⟩],
          [.success s!"You have added \x02{String.ofList word}\x02 as a bad word."])
    else (mc.badwords, [.fail .badparams "Invalid action given."])
  | _, _ => (mc.badwords,
    [.fail .needmoreparams (STR_INSUFFICIENT_PARAMS "BADWORDS"),
      .fail .needmoreparams "Syntax: BADWORDS <#channel> ADD <badword> <action>"])

/-- `BADWORDS channel DEL word`: the list afterwards. -/
def badwordsDel (core : Core) (access : Access) (word : Option CStr) (mc : Channel) :
    List Badword × List Output :=
  match word with
  | none => (mc.badwords,
    [.fail .needmoreparams (STR_INSUFFICIENT_PARAMS "BADWORDS"),
      .fail .needmoreparams "Syntax: BADWORDS <#channel> DEL <badword>"])
  | some word =>
    if !access.caSet then (mc.badwords, [.fail .noprivs STR_NOT_AUTHORIZED])
    else
      match mc.badwords.find? fun bw => core.irccasecmp bw.badword word with
      | some bw =>
        (mc.badwords.eraseP fun bw => core.irccasecmp bw.badword word,
          [.success s!"Bad word \x02{String.ofList bw.badword}\x02 has been deleted."])
      | none =>
        (mc.badwords, [.success s!"Word \x02{String.ofList word}\x02 not found in bad word database."])

/-- `BADWORDS channel LIST`: what it sends. -/
def badwordsList (core : Core) (access : Access) (mc : Channel) : List Output :=
  if !access.caAclview then [.fail .noprivs STR_NOT_AUTHORIZED]
  else
    let line (bw : Badword) : Output :=
      let badword := String.ofList bw.badword
      let action := String.ofList bw.action
      let creator := String.ofList bw.creator
      let buf := core.strftime bw.addTs
      .success s!"Word: \x02{badword}\x02, Action: \x02{action}\x02 ({creator} - {buf})"
    mc.badwords.map line ++ [.success "End of list."]

/-- `mychan_find(name)` -/
def mychanFind (core : Core) (mclist : List Channel) (name : CStr) : Option Channel :=
  mclist.find? fun mc => core.irccasecmp mc.name name

/-- The list of `mc` is changed to `l`. -/
def setBadwords (mc : Channel) (l : List Badword) (mclist : List Channel) : List Channel :=
  mclist.map fun c => if c.name = mc.name then { c with badwords := l } else c

/-- `BADWORDS channel command [badword] [action]` -/
def csCmdBadwords (core : Core) (banLikeModes : Option CStr) (si : Source) (access : Access) (now : ℕ)
    (parv : List CStr) (mclist : List Channel) : List Channel × List Output :=
  match parv[0]?, parv[1]? with
  | some channel, some command =>
    match mychanFind core mclist channel with
    | none => (mclist, [.fail .nosuch_target (STR_IS_NOT_REGISTERED channel)])
    | some mc =>
      if strcasecmp "ADD".toList command then
        let (l, out) := badwordsAdd core banLikeModes si access now parv[2]? parv[3]? mc
        (setBadwords mc l mclist, out)
      else if strcasecmp "DEL".toList command then
        let (l, out) := badwordsDel core access parv[2]? mc
        (setBadwords mc l mclist, out)
      else if strcasecmp "LIST".toList command then (mclist, badwordsList core access mc)
      else (mclist, [.fail .needmoreparams (STR_INVALID_PARAMS "BADWORDS"), badwordsSyntax])
  | _, _ => (mclist, [.fail .needmoreparams (STR_INSUFFICIENT_PARAMS "SET BADWORDS"), badwordsSyntax])

/-! ### The list of one channel -/

/-- A `BADWORDS` command, with what the core says of its source and of the IRC
daemon. -/
structure Cmd where
  banLikeModes : Option CStr
  si : Source
  access : Access
  now : ℕ
  parv : List CStr
deriving DecidableEq, Repr

/-- The lists after the command. -/
def Cmd.run (core : Core) (c : Cmd) (mclist : List Channel) : List Channel :=
  (csCmdBadwords core c.banLikeModes c.si c.access c.now c.parv mclist).1

/-- The command is about the channel `name`. -/
def Cmd.Names (core : Core) (c : Cmd) (name : CStr) : Prop :=
  ∃ channel, c.parv[0]? = some channel ∧ core.irccasecmp channel name = true

instance (core : Core) (c : Cmd) (name : CStr) : Decidable (c.Names core name) :=
  decidable_of_iff (∃ channel ∈ c.parv[0]?, core.irccasecmp channel name = true) Iff.rfl

/-- An `ADD` that passes its checks adds an entry of the word. -/
def Cmd.addOp (c : Cmd) (mc : Channel) : Keyed.Op Badword CStr :=
  match c.parv[2]?, c.parv[3]? with
  | some word, some action =>
    if c.access.caSet && isAction c.banLikeModes action then
      .add ⟨word, c.now, c.si.name, mc.name, action⟩
    else .look
  | _, _ => .look

/-- A `DEL` that passes its checks deletes the entry of the word. -/
def Cmd.delOp (c : Cmd) : Keyed.Op Badword CStr :=
  match c.parv[2]? with
  | some word => if c.access.caSet then .del word else .look
  | none => .look

/-- What the command asks of the list of the channel it names. -/
def Cmd.op (c : Cmd) (mc : Channel) : Keyed.Op Badword CStr :=
  match c.parv[1]? with
  | some command =>
    if strcasecmp "ADD".toList command then c.addOp mc
    else if strcasecmp "DEL".toList command then c.delOp
    else .look
  | none => .look

theorem badwordsAdd_fst (core : Core) (c : Cmd) (mc : Channel) :
    (badwordsAdd core c.banLikeModes c.si c.access c.now c.parv[2]? c.parv[3]? mc).1 =
      (c.addOp mc).run core.irccasecmp Badword.badword mc.badwords := by
  unfold badwordsAdd Cmd.addOp
  split
  · cases hset : c.access.caSet with
    | false => simp [Keyed.Op.run]
    | true =>
      simp only [Bool.not_true, Bool.false_eq_true, if_false, Bool.true_and]
      split
      · rw [Keyed.Op.run]
        split
        · rfl
        · rfl
      · rfl
  · rfl

theorem badwordsDel_fst (core : Core) (c : Cmd) (mc : Channel) :
    (badwordsDel core c.access c.parv[2]? mc).1 =
      c.delOp.run core.irccasecmp Badword.badword mc.badwords := by
  unfold badwordsDel Cmd.delOp
  cases c.parv[2]? with
  | none => rfl
  | some word =>
    cases c.access.caSet with
    | false => rfl
    | true =>
      simp only [Bool.not_true, Bool.false_eq_true, if_false, if_true, Keyed.Op.run]
      split
      · rfl
      · rename_i hnone
        exact (Keyed.erase_of_none hnone).symm

theorem mychanFind_congr {core : Core} {a b : CStr} (h : core.irccasecmp a b = true) (mclist : List Channel) :
    mychanFind core mclist a = mychanFind core mclist b := by
  have hsame : ∀ mc : Channel, core.irccasecmp mc.name a = core.irccasecmp mc.name b := by
    intro mc
    rw [irccasecmp_comm, irccasecmp_congr h, irccasecmp_comm]
  rw [mychanFind, funext hsame]
  rfl

theorem mychanFind_setBadwords (core : Core) (mc : Channel) (l : List Badword) (mclist : List Channel)
    (name : CStr) : mychanFind core (setBadwords mc l mclist) name =
      (mychanFind core mclist name).map fun c =>
        if c.name = mc.name then { c with badwords := l } else c := by
  have hname : ∀ c : Channel, (if c.name = mc.name then { c with badwords := l } else c).name = c.name := by
    intro c
    split <;> rfl
  rw [mychanFind, setBadwords, List.find?_map]
  simp only [Function.comp_def, hname]
  rfl

/-- A command edits the list of the channel it names, or none if it asks for
nothing or there is no such channel. -/
theorem Cmd.run_cases (core : Core) (c : Cmd) (mclist : List Channel) :
    (∃ channel mc, c.parv[0]? = some channel ∧ mychanFind core mclist channel = some mc ∧
      c.run core mclist =
        setBadwords mc ((c.op mc).run core.irccasecmp Badword.badword mc.badwords) mclist) ∨
    (c.run core mclist = mclist ∧ ∀ name mc, c.Names core name →
      mychanFind core mclist name = some mc → c.op mc = .look) := by
  unfold Cmd.run csCmdBadwords
  split
  · rename_i channel command hchannel hcommand
    split
    · rename_i hnone
      right
      refine ⟨rfl, fun name mc hn hmc => ?_⟩
      obtain ⟨_, hchan, hsame⟩ := hn
      cases hchannel.symm.trans hchan
      rw [← mychanFind_congr hsame, hnone] at hmc
      cases hmc
    · rename_i mc hmc
      have hop : ∀ d : Channel, c.op d = if strcasecmp "ADD".toList command then c.addOp d
          else if strcasecmp "DEL".toList command then c.delOp else .look := by
        intro d
        rw [Cmd.op, hcommand]
      by_cases hadd : strcasecmp "ADD".toList command = true
      · left
        refine ⟨channel, mc, hchannel, hmc, ?_⟩
        rw [hop, if_pos hadd, if_pos hadd, ← badwordsAdd_fst]
      · by_cases hdel : strcasecmp "DEL".toList command = true
        · left
          refine ⟨channel, mc, hchannel, hmc, ?_⟩
          rw [hop, if_neg hadd, if_neg hadd, if_pos hdel, if_pos hdel, ← badwordsDel_fst]
        · right
          refine ⟨?_, fun _ d _ _ => by rw [hop, if_neg hadd, if_neg hdel]⟩
          rw [if_neg hadd, if_neg hdel]
          split <;> rfl
  · rename_i hmissing
    right
    refine ⟨rfl, fun name mc hn _ => ?_⟩
    obtain ⟨channel, hchannel, -⟩ := hn
    rw [Cmd.op]
    split
    · rename_i command hcommand
      exact (hmissing channel command hchannel hcommand).elim
    · rfl

/-- **A command edits the list of the channel it names, and no other.** -/
theorem mychanFind_run (core : Core) (c : Cmd) (mclist : List Channel) (name : CStr) :
    mychanFind core (c.run core mclist) name = (mychanFind core mclist name).map fun mc =>
      if c.Names core name then
        { mc with badwords := (c.op mc).run core.irccasecmp Badword.badword mc.badwords }
      else mc := by
  rcases c.run_cases core mclist with ⟨channel, mc, hchannel, hmc, hrun⟩ | ⟨hrun, hlook⟩
  · have hnames : c.Names core name ↔ core.irccasecmp channel name = true := by
      simp [Cmd.Names, hchannel]
    rw [hrun, mychanFind_setBadwords]
    by_cases hn : core.irccasecmp channel name = true
    · rw [← mychanFind_congr hn, hmc, Option.map_some, Option.map_some, if_pos rfl, if_pos (hnames.mpr hn)]
    · refine Option.map_congr fun d hd => ?_
      rw [if_neg (hnames.not.mpr hn), if_neg]
      intro heq
      -- the channel `name` is not the one that the command names
      have hdname : core.irccasecmp d.name name = true := by simpa using List.find?_some hd
      have hmcname : core.irccasecmp mc.name channel = true := by simpa using List.find?_some hmc
      rw [heq, irccasecmp_congr hmcname] at hdname
      exact hn hdname
  · rw [hrun]
    cases hmc : mychanFind core mclist name with
    | none => rfl
    | some mc =>
      rw [Option.map_some]
      split
      · rename_i hn
        rw [hlook name mc hn hmc]
        rfl
      · rfl

/-! ### What a command does to the lists -/

/-- An entry that `ADD` adds to the list of `mc`. -/
def Added (banLikeModes : Option CStr) (si : Source) (now : ℕ) (parv : List CStr) (mc : Channel)
    (bw : Badword) : Prop :=
  parv[2]? = some bw.badword ∧ bw.addTs = now ∧ bw.creator = si.name ∧ bw.channel = mc.name ∧
    parv[3]? = some bw.action ∧ isAction banLikeModes bw.action = true

theorem added_of_op {c : Cmd} {mc : Channel} {bw : Badword} (h : c.op mc = .add bw) :
    Added c.banLikeModes c.si c.now c.parv mc bw := by
  unfold Cmd.op Cmd.addOp Cmd.delOp at h
  split at h
  · split at h
    · split at h
      · rename_i word action hword haction
        split at h
        · rename_i hchecks
          cases h
          exact ⟨hword, rfl, rfl, rfl, haction, (Bool.and_eq_true_iff.mp hchecks).2⟩
        · cases h
      · cases h
    · split at h
      · split at h
        · split at h
          · cases h
          · cases h
        · cases h
      · cases h
  · cases h

/-- A command leaves all the lists as they are, or edits the one of the channel
it names. -/
theorem csCmdBadwords_edited (core : Core) (banLikeModes : Option CStr) (si : Source) (access : Access)
    (now : ℕ) (parv : List CStr) (mclist : List Channel) :
    let mclist' := (csCmdBadwords core banLikeModes si access now parv mclist).1
    mclist' = mclist ∨ ∃ mc ∈ mclist, ∃ l, mclist' = setBadwords mc l mclist ∧
      Keyed.Edited core.irccasecmp Badword.badword (Added banLikeModes si now parv mc) mc.badwords l := by
  let c : Cmd := ⟨banLikeModes, si, access, now, parv⟩
  rcases c.run_cases core mclist with ⟨channel, mc, -, hmc, hrun⟩ | ⟨hrun, -⟩
  · right
    refine ⟨mc, List.mem_of_find?_eq_some hmc, _, hrun, ?_⟩
    exact (Keyed.Op.run_edited (c.op mc) mc.badwords).mono fun _ => added_of_op
  · exact Or.inl hrun

theorem unique_run {core : Core} {mclist : List Channel}
    (h : ∀ mc ∈ mclist, Keyed.Unique core.irccasecmp Badword.badword mc.badwords) (c : Cmd) :
    ∀ mc ∈ c.run core mclist, Keyed.Unique core.irccasecmp Badword.badword mc.badwords := by
  rcases c.run_cases core mclist with ⟨channel, mc, -, hmc, hrun⟩ | ⟨hrun, -⟩
  · rw [hrun]
    intro d hd
    obtain ⟨d, hmem, rfl⟩ := List.mem_map.mp hd
    split
    · exact (h mc (List.mem_of_find?_eq_some hmc)).run (c.op mc)
    · exact h d hmem
  · rwa [hrun]

/-! ### The rows -/

/-- An entry whose fields are words. -/
structure Badword.Writable (bw : Badword) : Prop where
  badword : Word bw.badword
  creator : Word bw.creator
  channel : Word bw.channel
  action : Word bw.action

/-- A channel whose entries can be written, and name it. -/
def Channel.Writable (mc : Channel) : Prop := ∀ bw ∈ mc.badwords, bw.Writable ∧ bw.channel = mc.name

theorem word_of_isAction {banLikeModes : Option CStr} {action : CStr}
    (h : isAction banLikeModes action = true) : Word action := by
  have hof : ∀ {kind : CStr}, kind ≠ [] → ' ' ∉ kind → strcasecmp kind action = true → Word action := by
    intro kind h0 hblank hc
    refine ⟨?_, fun hmem => hblank (strcasecmp_mem (by decide) hc hmem)⟩
    have hlen : kind.length = action.length := strcasecmp_length hc
    exact List.ne_nil_of_length_pos (hlen ▸ List.length_pos_iff.mpr h0)
  simp only [isAction, Bool.or_eq_true, Bool.and_eq_true] at h
  rcases h with (((h | h) | h) | h) | ⟨h, -⟩ <;> exact hof (by decide) (by decide) h

theorem csCmdBadwords_writable {core : Core} {banLikeModes : Option CStr} {si : Source} {access : Access}
    {now : ℕ} {parv : List CStr} {mclist : List Channel} (hsi : Word si.name) (hparv : Params 4 parv)
    (hname : ∀ mc ∈ mclist, Word mc.name) (h : ∀ mc ∈ mclist, mc.Writable) :
    ∀ mc ∈ (csCmdBadwords core banLikeModes si access now parv mclist).1, mc.Writable := by
  rcases csCmdBadwords_edited core banLikeModes si access now parv mclist with
    hsame | ⟨mc, hmc, l, hset, hedit⟩
  · rw [hsame]
    exact h
  · have hl : ∀ bw ∈ l, bw.Writable ∧ bw.channel = mc.name := by
      refine hedit.forall (h mc hmc) fun bw hbw => ?_
      obtain ⟨hbadword, -, hcreator, hchannel, -, haction⟩ := hbw
      refine ⟨⟨hparv.word hbadword (by omega), ?_, ?_, word_of_isAction haction⟩, hchannel⟩
      · rw [hcreator]
        exact hsi
      · rw [hchannel]
        exact hname mc hmc
    rw [hset]
    intro c hc
    obtain ⟨c, hmem, rfl⟩ := List.mem_map.mp hc
    split
    · rename_i heq
      intro bw hbw
      rw [heq]
      exact hl bw hbw
    · exact h c hmem

theorem map_name_csCmdBadwords (core : Core) (banLikeModes : Option CStr) (si : Source) (access : Access)
    (now : ℕ) (parv : List CStr) (mclist : List Channel) :
    (csCmdBadwords core banLikeModes si access now parv mclist).1.map (·.name) = mclist.map (·.name) := by
  have hset : ∀ (mc : Channel) (l : List Badword),
      (setBadwords mc l mclist).map (·.name) = mclist.map (·.name) := by
    intro mc l
    rw [setBadwords, List.map_map]
    refine List.map_congr_left fun c _ => ?_
    rw [Function.comp_apply]
    split <;> rfl
  rcases csCmdBadwords_edited core banLikeModes si access now parv mclist with hsame | ⟨mc, -, l, hl, -⟩
  · rw [hsame]
  · rw [hl, hset]

/-- The entry is added to the channel it names. -/
def addBadword (core : Core) (mclist : List Channel) (bw : Badword) : List Channel :=
  mclist.map fun mc =>
    if core.irccasecmp mc.name bw.channel then { mc with badwords := mc.badwords ++ [bw] } else mc

theorem dbHBw_row {B : Backend} {core : Core} {bw : Badword} (h : bw.Writable) (mclist : List Channel) :
    dbHBw B core mclist (B.text (badwordRow bw).fields) = some (addBadword core mclist bw, B.text []) := by
  show dbHBw B core mclist (B.text [.word bw.badword, .time bw.addTs, .word bw.creator, .word bw.channel,
    .word bw.action]) = _
  rw [dbHBw, B.word_bind h.badword, B.time_bind, B.word_bind h.creator, B.word_bind h.channel,
    B.word_bind h.action]
  rfl

/-- Each channel gets the entries that name it, in their order. -/
theorem foldl_addBadword (core : Core) : ∀ (bws : List Badword) (mclist : List Channel),
    bws.foldl (addBadword core) mclist = mclist.map fun mc =>
      { mc with badwords := mc.badwords ++ bws.filter fun bw => core.irccasecmp mc.name bw.channel }
  | [], mclist => by simp
  | bw :: bws, mclist => by
    rw [List.foldl_cons, foldl_addBadword core bws, addBadword, List.map_map]
    refine List.map_congr_left fun mc _ => ?_
    rw [Function.comp_apply]
    by_cases hc : core.irccasecmp mc.name bw.channel = true
    · simp only [hc, if_true, List.filter_cons, List.append_assoc, List.singleton_append]
    · simp only [hc, Bool.false_eq_true, if_false, List.filter_cons]

/-- The entries that name a channel are its own, if no other channel has its
name. -/
theorem filter_badwords {core : Core} : ∀ {mclist : List Channel},
    Keyed.Unique core.irccasecmp Channel.name mclist → (∀ mc ∈ mclist, mc.Writable) → ∀ mc ∈ mclist,
    ((mclist.flatMap Channel.badwords).filter fun bw => core.irccasecmp mc.name bw.channel) = mc.badwords
  | [], _, _, _, h => (List.not_mem_nil h).elim
  | c :: mclist, hne, hw, mc, hmc => by
    obtain ⟨hc, hne⟩ := List.pairwise_cons.mp hne
    have hwc : c.Writable := hw c (by simp)
    have hwl : ∀ d ∈ mclist, d.Writable := fun d hd => hw d (List.mem_cons_of_mem c hd)
    rw [List.flatMap_cons, List.filter_append]
    rcases List.mem_cons.mp hmc with rfl | hmc
    · have hown : ∀ bw ∈ mc.badwords, core.irccasecmp mc.name bw.channel = true := by
        intro bw hbw
        rw [(hwc bw hbw).2]
        exact irccasecmp_self core _
      have hrest : ∀ bw ∈ mclist.flatMap Channel.badwords, ¬ core.irccasecmp mc.name bw.channel = true := by
        intro bw hbw
        obtain ⟨d, hd, hbw⟩ := List.mem_flatMap.mp hbw
        rw [(hwl d hd bw hbw).2, hc d hd]
        exact Bool.false_ne_true
      rw [List.filter_eq_self.mpr hown, List.filter_eq_nil_iff.mpr hrest, List.append_nil]
    · have hother : ∀ bw ∈ c.badwords, ¬ core.irccasecmp mc.name bw.channel = true := by
        intro bw hbw
        rw [(hwc bw hbw).2, irccasecmp_comm, hc mc hmc]
        exact Bool.false_ne_true
      rw [List.filter_eq_nil_iff.mpr hother, List.nil_append]
      exact filter_badwords hne hwl mc hmc

/-- **The lists of the channels are put together again** from all the entries. -/
theorem regroup {core : Core} {mclist : List Channel} (hne : Keyed.Unique core.irccasecmp Channel.name mclist)
    (hw : ∀ mc ∈ mclist, mc.Writable) :
    (mclist.flatMap Channel.badwords).foldl (addBadword core) ((mclist.map Channel.name).map (⟨·, []⟩)) =
      mclist := by
  rw [foldl_addBadword, List.map_map, List.map_map]
  conv_rhs => rw [← List.map_id mclist]
  refine List.map_congr_left fun mc hmc => ?_
  simp only [Function.comp_apply, List.nil_append, filter_badwords hne hw mc hmc, id_eq]

end Badwords
end AthemeContrib
