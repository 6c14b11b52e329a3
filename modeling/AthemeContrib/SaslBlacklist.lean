/-
# sasl_blacklist: what a configuration restricts

Two lists are read from the configuration of the SASL service, the restricted
hosts and the mechanisms permitted there, and four hooks go by them. A block that
is read replaces its list, entry by entry, a nested block being warned of and
left out (`process_entries`); but a block without entries is returned from
before the list is cleared, and leaves what an earlier configuration had put
there (`process_empty`). So the hooks follow the last configuration that was
loaded exactly if no list is left over (`follows_iff`).

Key definitions: `ConfigEntry`, `blacklistProcessConfigentry`,
`blacklistCanLogin`, `blacklistCanRegister`, `blacklistCanRename`,
`blacklistCanLogout`, `Config`, `after`, `Follows`, `LeftOver`.
Key theorems: `loaded_eq_iff`, `follows_of_lists`, `follows_iff`.
-/
import AthemeContrib.Lib.CString
import Mathlib.Data.List.Induction

namespace AthemeContrib
namespace SaslBlacklist

open CStr

/-- An entry of a configuration file: its name, and the entries of its block; the
pointer is null where there is none. -/
structure ConfigEntry where
  varname : CStr
  entries : List ConfigEntry

/-- The entries that are names, not blocks. -/
def ConfigEntry.leafNames (ce : ConfigEntry) : List CStr :=
  (ce.entries.filter (·.entries.isEmpty)).map ConfigEntry.varname

/-- The module's lists, and the warnings of its configuration. -/
structure Lists where
  restrictedHosts : List CStr
  permittedMechanisms : List CStr
  warnings : List String
deriving DecidableEq, Repr

/-- `blacklist_clear_list` -/
def blacklistClearList (_ : List CStr) : List CStr := []

/-- What becomes of an entry of the block. -/
def processEntry (name : String) (acc : List CStr × List String) (subce : ConfigEntry) :
    List CStr × List String :=
  if subce.entries.isEmpty then (acc.1 ++ [subce.varname], acc.2)
  else (acc.1, acc.2 ++ [s!"Invalid saslserv::{name} entry"])

/-- `blacklist_process_configentry`: the list, and the warnings. -/
def blacklistProcessConfigentry (ce : ConfigEntry) (list : List CStr) (name : String) :
    List CStr × List String :=
  if ce.entries.isEmpty then (list, [])
  else ce.entries.foldl (processEntry name) (blacklistClearList list, [])

/-- `c_restricted_hosts` -/
def cRestrictedHosts (ce : ConfigEntry) (s : Lists) : Lists :=
  let (list, warnings) := blacklistProcessConfigentry ce s.restrictedHosts "restricted_hosts"
  { s with restrictedHosts := list, warnings := s.warnings ++ warnings }

/-- `c_permitted_mechanisms` -/
def cPermittedMechanisms (ce : ConfigEntry) (s : Lists) : Lists :=
  let (list, warnings) := blacklistProcessConfigentry ce s.permittedMechanisms "permitted_mechanisms"
  { s with permittedMechanisms := list, warnings := s.warnings ++ warnings }

/-- A configuration, as far as this module reads it. -/
structure Config where
  restrictedHosts : ConfigEntry
  permittedMechanisms : ConfigEntry

/-- The lists after the configurations `loads` were loaded one after another. -/
def after (loads : List Config) : Lists :=
  loads.foldl (fun s load => cPermittedMechanisms load.permittedMechanisms
    (cRestrictedHosts load.restrictedHosts s)) ⟨[], [], []⟩

/-! ### The hooks -/

/-- `match(mask, host) == 0`, `match_ips(mask, host) == 0`, and the SASL service. -/
structure Services where
  matchHost : CStr → CStr → Bool
  matchIps : CStr → CStr → Bool
  saslsvs : ℕ

/-- `struct sasl_session`; `mechptr` is the name of the mechanism chosen. -/
structure SaslSession where
  host : Option CStr
  ip : Option CStr
  mechptr : Option CStr
deriving DecidableEq, Repr

structure User where
  host : Option CStr
  chost : Option CStr
  vhost : Option CStr
  ip : Option CStr
deriving DecidableEq, Repr

/-- A source, with the SASL session it has if it comes by that service. -/
structure Sourceinfo where
  smu : Option ℕ
  service : Option ℕ
  sess : Option SaslSession
  su : Option User
deriving DecidableEq, Repr

/-- `hook_user_login_check_t` -/
structure LoginCheck where
  si : Option Sourceinfo
  mu : ℕ
  allowed : Bool
deriving DecidableEq, Repr

/-- `hook_user_register_check_t`; a registration goes on while `approved` is zero. -/
structure RegisterCheck where
  si : Sourceinfo
  approved : ℕ
deriving DecidableEq, Repr

/-- `hook_user_rename_check_t` -/
structure RenameCheck where
  si : Sourceinfo
  allowed : Bool
deriving DecidableEq, Repr

/-- `hook_user_logout_check_t` -/
structure LogoutCheck where
  u : Option User
  allowed : Bool
deriving DecidableEq, Repr

/-- `is_restricted_host` -/
def isRestrictedHost (sv : Services) (s : Lists) : Option CStr → Bool
  | none => false
  | some host =>
    if host.isEmpty then false
    else s.restrictedHosts.any fun entry => sv.matchHost entry host || sv.matchIps entry host

/-- `is_restricted_session` -/
def isRestrictedSession (sv : Services) (s : Lists) : Option SaslSession → Bool
  | none => false
  | some sess => isRestrictedHost sv s sess.host || isRestrictedHost sv s sess.ip

/-- `is_restricted_user` -/
def isRestrictedUser (sv : Services) (s : Lists) : Option User → Bool
  | none => false
  | some u =>
    isRestrictedHost sv s u.host || isRestrictedHost sv s u.chost || isRestrictedHost sv s u.vhost ||
      isRestrictedHost sv s u.ip

/-- `is_permitted_mechanism` -/
def isPermittedMechanism (s : Lists) : Option CStr → Bool
  | none => false
  | some mech => if mech.isEmpty then false else s.permittedMechanisms.any fun entry => entry = mech

/-- `blacklist_can_login` -/
def blacklistCanLogin (sv : Services) (s : Lists) (c : LoginCheck) : LoginCheck :=
  match c.si with
  | none => c
  | some si =>
    if si.smu = some c.mu then c
    else if si.service = some sv.saslsvs then
      match si.sess with
      | none => c -- is not restricted
      | some sess =>
        if sess.mechptr.isNone then c
        else if isRestrictedSession sv s (some sess) then
          if isPermittedMechanism s sess.mechptr then c else { c with allowed := false }
        else c
    else if isRestrictedUser sv s si.su then { c with allowed := false }
    else c

/-- `blacklist_can_register` -/
def blacklistCanRegister (sv : Services) (s : Lists) (c : RegisterCheck) : RegisterCheck :=
  if isRestrictedUser sv s c.si.su then { c with approved := c.approved + 1 } else c

/-- `blacklist_can_rename` -/
def blacklistCanRename (sv : Services) (s : Lists) (c : RenameCheck) : RenameCheck :=
  if isRestrictedUser sv s c.si.su then { c with allowed := false } else c

/-- `blacklist_can_logout` -/
def blacklistCanLogout (sv : Services) (s : Lists) (c : LogoutCheck) : LogoutCheck :=
  if isRestrictedUser sv s c.u then { c with allowed := false } else c

/-! ### What a configuration says -/

/-- The block `ce` restricts the host. -/
def Restricts (sv : Services) (ce : ConfigEntry) (host : Option CStr) : Prop :=
  ∃ h ∈ host, h ≠ [] ∧ ∃ entry ∈ ce.leafNames, sv.matchHost entry h = true ∨ sv.matchIps entry h = true

/-- It restricts one of the names the user goes by. -/
def RestrictsUser (sv : Services) (ce : ConfigEntry) (u : Option User) : Prop :=
  ∃ v ∈ u, ∃ host ∈ [v.host, v.chost, v.vhost, v.ip], Restricts sv ce host

/-- The block `ce` permits the mechanism. -/
def Permits (ce : ConfigEntry) (mech : CStr) : Prop := mech ≠ [] ∧ mech ∈ ce.leafNames

/-- The configuration refuses the login: it is to another account, and by a
mechanism not permitted to a host that is restricted, or not by SASL at all. -/
def RefusesLogin (sv : Services) (cfg : Config) (c : LoginCheck) : Prop :=
  ∃ si ∈ c.si, si.smu ≠ some c.mu ∧
    if si.service = some sv.saslsvs then
      ∃ sess ∈ si.sess, ∃ mech ∈ sess.mechptr,
        (∃ host ∈ [sess.host, sess.ip], Restricts sv cfg.restrictedHosts host) ∧
          ¬ Permits cfg.permittedMechanisms mech
    else RestrictsUser sv cfg.restrictedHosts si.su

/-- The lists and the hooks go by the configuration `cfg`. -/
structure Follows (sv : Services) (s : Lists) (cfg : Config) : Prop where
  hosts : s.restrictedHosts = cfg.restrictedHosts.leafNames
  mechanisms : s.permittedMechanisms = cfg.permittedMechanisms.leafNames
  login : ∀ c, (blacklistCanLogin sv s c).allowed = true ↔ c.allowed = true ∧ ¬ RefusesLogin sv cfg c
  register : ∀ c, (blacklistCanRegister sv s c).approved = c.approved ↔
    ¬ RestrictsUser sv cfg.restrictedHosts c.si.su
  rename : ∀ c, (blacklistCanRename sv s c).allowed = true ↔
    c.allowed = true ∧ ¬ RestrictsUser sv cfg.restrictedHosts c.si.su
  logout : ∀ c, (blacklistCanLogout sv s c).allowed = true ↔
    c.allowed = true ∧ ¬ RestrictsUser sv cfg.restrictedHosts c.u

section Hooks

variable {sv : Services} {s : Lists} {cfg : Config}

theorem isRestrictedHost_iff (sv : Services) (hhosts : s.restrictedHosts = cfg.restrictedHosts.leafNames)
    (host : Option CStr) : isRestrictedHost sv s host = true ↔ Restricts sv cfg.restrictedHosts host := by
  unfold Restricts
  cases host with
  | none => simp [isRestrictedHost]
  | some h =>
    by_cases hempty : h = []
    · simp [isRestrictedHost, hempty]
    · simp [isRestrictedHost, hempty, hhosts]

theorem isRestrictedUser_iff (sv : Services) (hhosts : s.restrictedHosts = cfg.restrictedHosts.leafNames)
    (u : Option User) : isRestrictedUser sv s u = true ↔ RestrictsUser sv cfg.restrictedHosts u := by
  unfold RestrictsUser
  cases u with
  | none => simp [isRestrictedUser]
  | some v => simp [isRestrictedUser, isRestrictedHost_iff sv hhosts, or_assoc]

theorem isRestrictedSession_iff (sv : Services) (hhosts : s.restrictedHosts = cfg.restrictedHosts.leafNames)
    (sess : SaslSession) :
    isRestrictedSession sv s (some sess) = true ↔
      ∃ host ∈ [sess.host, sess.ip], Restricts sv cfg.restrictedHosts host := by
  simp [isRestrictedSession, isRestrictedHost_iff sv hhosts]

theorem isPermittedMechanism_iff (hmechs : s.permittedMechanisms = cfg.permittedMechanisms.leafNames)
    (mech : CStr) : isPermittedMechanism s (some mech) = true ↔ Permits cfg.permittedMechanisms mech := by
  unfold Permits
  by_cases hempty : mech = []
  · simp [isPermittedMechanism, hempty]
  · simp [isPermittedMechanism, hempty, hmechs]

theorem blacklistCanLogin_iff (hhosts : s.restrictedHosts = cfg.restrictedHosts.leafNames)
    (hmechs : s.permittedMechanisms = cfg.permittedMechanisms.leafNames) (c : LoginCheck) :
    (blacklistCanLogin sv s c).allowed = true ↔ c.allowed = true ∧ ¬ RefusesLogin sv cfg c := by
  unfold RefusesLogin blacklistCanLogin
  rcases hsi : c.si with _ | si
  · simp
  by_cases hsmu : si.smu = some c.mu
  · simp [hsmu]
  by_cases hservice : si.service = some sv.saslsvs
  · rcases hsess : si.sess with _ | sess
    · simp [hsmu, hservice, hsess]
    rcases hmech : sess.mechptr with _ | mech
    · simp [hsmu, hservice, hsess, hmech]
    have hsession := isRestrictedSession_iff sv hhosts sess
    have hpermitted := isPermittedMechanism_iff hmechs mech
    by_cases hr : isRestrictedSession sv s (some sess) = true
    · by_cases hp : isPermittedMechanism s (some mech) = true
      · simp [hsmu, hservice, hsess, hmech, hr, hp, hpermitted.mp hp]
      · have hno : ¬ Permits cfg.permittedMechanisms mech := mt hpermitted.mpr hp
        have hhost := hsession.mp hr
        simp only [hsmu, hservice, hsess, hmech, hr, hp, if_true, if_false, Option.isNone_some,
          Bool.false_eq_true]
        refine iff_of_false nofun fun h => h.2 ⟨si, rfl, hsmu, ?_⟩
        rw [if_pos hservice]
        exact ⟨sess, hsess, mech, hmech, hhost, hno⟩
    · have hhost := mt hsession.mpr hr
      simp only [hsmu, hservice, hsess, hmech, hr, if_true, if_false, Option.isNone_some, Bool.false_eq_true]
      refine (and_iff_left fun h => ?_).symm
      obtain ⟨si', hsi', -, h⟩ := h
      cases hsi'
      rw [if_pos hservice] at h
      obtain ⟨sess', hsess', mech', -, hhost', -⟩ := h
      cases hsess.symm.trans hsess'
      exact hhost hhost'
  · have huser := isRestrictedUser_iff sv hhosts si.su
    by_cases hu : isRestrictedUser sv s si.su = true
    · simp [hsmu, hservice, hu, huser.mp hu]
    · simp [hsmu, hservice, hu, mt huser.mpr hu]

/-- A check that is refused where `b` says so. -/
theorem refused_iff {b allowed : Bool} {P : Prop} (h : b = true ↔ P) :
    (if b = true then false else allowed) = true ↔ allowed = true ∧ ¬ P := by
  rw [← h]
  cases b with
  | true => simp
  | false => simp

/-- Lists that are the configuration's have the hooks follow it. -/
theorem follows_of_lists (hhosts : s.restrictedHosts = cfg.restrictedHosts.leafNames)
    (hmechs : s.permittedMechanisms = cfg.permittedMechanisms.leafNames) : Follows sv s cfg where
  hosts := hhosts
  mechanisms := hmechs
  login := blacklistCanLogin_iff hhosts hmechs
  register := by
    intro c
    rw [← isRestrictedUser_iff sv hhosts]
    unfold blacklistCanRegister
    split
    · rename_i h
      simp [h]
    · rename_i h
      exact iff_of_true rfl h
  rename := by
    intro c
    have hif : (blacklistCanRename sv s c).allowed =
        if isRestrictedUser sv s c.si.su then false else c.allowed := apply_ite RenameCheck.allowed ..
    rw [hif]
    exact refused_iff (isRestrictedUser_iff sv hhosts c.si.su)
  logout := by
    intro c
    have hif : (blacklistCanLogout sv s c).allowed = if isRestrictedUser sv s c.u then false else c.allowed :=
      apply_ite LogoutCheck.allowed ..
    rw [hif]
    exact refused_iff (isRestrictedUser_iff sv hhosts c.u)

end Hooks

/-! ### Configurations one after another -/

theorem foldl_processEntry (name : String) (entries : List ConfigEntry) (acc : List CStr × List String) :
    entries.foldl (processEntry name) acc =
      (acc.1 ++ (entries.filter (·.entries.isEmpty)).map ConfigEntry.varname,
        acc.2 ++ (entries.filter (! ·.entries.isEmpty)).map fun _ => s!"Invalid saslserv::{name} entry") := by
  induction entries generalizing acc with
  | nil => simp
  | cons e entries ih =>
    rw [List.foldl_cons, ih]
    unfold processEntry
    by_cases h : e.entries.isEmpty = true
    · simp [h]
    · simp [h]

/-- A block with an entry replaces the list, with a warning for each block in it. -/
theorem process_entries {ce : ConfigEntry} (h : ce.entries ≠ []) (list : List CStr) (name : String) :
    blacklistProcessConfigentry ce list name = (ce.leafNames,
      (ce.entries.filter (! ·.entries.isEmpty)).map fun _ => s!"Invalid saslserv::{name} entry") := by
  unfold blacklistProcessConfigentry
  rw [if_neg (by simpa using h), foldl_processEntry]
  rfl

/-- A block without one leaves it. -/
theorem process_empty {ce : ConfigEntry} (h : ce.entries = []) (list : List CStr) (name : String) :
    blacklistProcessConfigentry ce list name = (list, []) := if_pos (by rw [h]; rfl)

/-- The list after its blocks were read one after another. -/
def loaded (blocks : List ConfigEntry) : List CStr :=
  blocks.foldl (fun list ce => if ce.entries = [] then list else ce.leafNames) []

theorem process_list (ce : ConfigEntry) (list : List CStr) (name : String) :
    (blacklistProcessConfigentry ce list name).1 = if ce.entries = [] then list else ce.leafNames := by
  by_cases h : ce.entries = []
  · rw [process_empty h, if_pos h]
  · rw [process_entries h, if_neg h]

theorem after_hosts (loads : List Config) :
    (after loads).restrictedHosts = loaded (loads.map Config.restrictedHosts) := by
  unfold after loaded
  rw [List.foldl_map]
  exact (List.foldl_hom Lists.restrictedHosts fun s load => (process_list ..).symm).symm

theorem after_mechanisms (loads : List Config) :
    (after loads).permittedMechanisms = loaded (loads.map Config.permittedMechanisms) := by
  unfold after loaded
  rw [List.foldl_map]
  exact (List.foldl_hom Lists.permittedMechanisms fun s load => (process_list ..).symm).symm

theorem loaded_snoc (blocks : List ConfigEntry) (ce : ConfigEntry) :
    loaded (blocks ++ [ce]) = if ce.entries = [] then loaded blocks else ce.leafNames := by
  unfold loaded
  rw [List.foldl_append]
  rfl

/-- Of the blocks, one has a name and those after it are empty. -/
def Remembered (blocks : List ConfigEntry) : Prop :=
  ∃ before old between, blocks = before ++ old :: between ∧ old.leafNames ≠ [] ∧
    ∀ ce ∈ between, ce.entries = []

/-- The block `ce` is empty, and an earlier one is remembered. -/
def LeftOver (earlier : List ConfigEntry) (ce : ConfigEntry) : Prop := ce.entries = [] ∧ Remembered earlier

theorem leafNames_empty {ce : ConfigEntry} (h : ce.entries = []) : ce.leafNames = [] := by
  unfold ConfigEntry.leafNames
  rw [h]
  rfl

/-- A list is not empty if a block is remembered. -/
theorem loaded_ne_nil_iff (blocks : List ConfigEntry) : loaded blocks ≠ [] ↔ Remembered blocks := by
  induction blocks using List.reverseRecOn with
  | nil =>
    apply iff_of_false (not_not.mpr rfl)
    intro h
    obtain ⟨before, old, between, h, -⟩ := h
    simp at h
  | append_singleton blocks ce ih =>
    rw [loaded_snoc]
    by_cases hce : ce.entries = []
    · rw [if_pos hce, ih]
      constructor
      · intro h
        obtain ⟨before, old, between, rfl, hold, hbetween⟩ := h
        refine ⟨before, old, between ++ [ce], by simp, hold, fun d hd => ?_⟩
        rcases List.mem_append.mp hd with hd | hd
        · exact hbetween d hd
        · rw [List.mem_singleton.mp hd]
          exact hce
      · intro h
        obtain ⟨before, old, between, heq, hold, hbetween⟩ := h
        rcases List.eq_nil_or_concat between with rfl | ⟨between, d, rfl⟩
        · -- the last block is not the one remembered
          have hlast : ce = old := by simpa using (List.append_inj' heq rfl).2
          exact absurd (leafNames_empty (hlast ▸ hce)) hold
        · refine ⟨before, old, between, ?_, hold, fun d' hd' => hbetween d' (by simp [hd'])⟩
          have heq' : blocks ++ [ce] = (before ++ old :: between) ++ [d] := by simpa using heq
          exact (List.append_inj' heq' rfl).1
    · rw [if_neg hce]
      constructor
      · intro h
        exact ⟨blocks, ce, [], rfl, h, nofun⟩
      · intro h
        obtain ⟨before, old, between, heq, hold, hbetween⟩ := h
        rcases List.eq_nil_or_concat between with rfl | ⟨between, d, rfl⟩
        · have hlast : ce = old := by simpa using (List.append_inj' heq rfl).2
          rw [hlast]
          exact hold
        · have heq' : blocks ++ [ce] = (before ++ old :: between) ++ [d] := by simpa using heq
          have hlast : ce = d := by simpa using (List.append_inj' heq' rfl).2
          exact absurd (hbetween d (by simp)) (hlast ▸ hce)

/-- A list is that of its last block unless an earlier one is left over. -/
theorem loaded_eq_iff (earlier : List ConfigEntry) (ce : ConfigEntry) :
    loaded (earlier ++ [ce]) = ce.leafNames ↔ ¬ LeftOver earlier ce := by
  unfold LeftOver
  rw [loaded_snoc]
  by_cases hce : ce.entries = []
  · rw [if_pos hce, leafNames_empty hce, ← loaded_ne_nil_iff, and_iff_right hce, not_not]
  · rw [if_neg hce]
    exact iff_of_true rfl fun h => hce h.1

/-- **The last configuration is followed exactly if neither list is left over.** -/
theorem follows_iff (sv : Services) (earlier : List Config) (last : Config) :
    Follows sv (after (earlier ++ [last])) last ↔
      ¬ LeftOver (earlier.map Config.restrictedHosts) last.restrictedHosts ∧
        ¬ LeftOver (earlier.map Config.permittedMechanisms) last.permittedMechanisms := by
  rw [← loaded_eq_iff, ← loaded_eq_iff]
  have hhosts : (after (earlier ++ [last])).restrictedHosts =
      loaded (earlier.map Config.restrictedHosts ++ [last.restrictedHosts]) := by
    rw [after_hosts, List.map_append]
    rfl
  have hmechs : (after (earlier ++ [last])).permittedMechanisms =
      loaded (earlier.map Config.permittedMechanisms ++ [last.permittedMechanisms]) := by
    rw [after_mechanisms, List.map_append]
    rfl
  rw [← hhosts, ← hmechs]
  exact ⟨fun h => ⟨h.hosts, h.mechanisms⟩, fun h => follows_of_lists h.1 h.2⟩

/-- A configuration of blocks with the entries `hosts` and `mechs`. -/
def config (hosts mechs : List CStr) : Config where
  restrictedHosts := ⟨"restricted_hosts".toList, hosts.map fun h => ⟨h, []⟩⟩
  permittedMechanisms := ⟨"permitted_mechanisms".toList, mechs.map fun m => ⟨m, []⟩⟩

/-- The last host was taken out of the block, and is refused as before. -/
theorem last_host_stays :
    ¬ Follows ⟨fun mask host => mask = host, fun _ _ => false, 1⟩
        (after [config ["exit.example".toList] [], config [] []]) (config [] []) ∧
      blacklistCanLogout ⟨fun mask host => mask = host, fun _ _ => false, 1⟩
        (after [config ["exit.example".toList] [], config [] []])
        ⟨some ⟨some "exit.example".toList, none, none, none⟩, true⟩ =
          ⟨some ⟨some "exit.example".toList, none, none, none⟩, false⟩ := by
  refine ⟨fun h => ?_, by decide⟩
  have hhosts : ["exit.example".toList] = ([] : List CStr) := h.hosts
  cases hhosts

end SaslBlacklist
end AthemeContrib
