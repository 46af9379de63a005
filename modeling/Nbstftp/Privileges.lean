import Nbstftp.System

/-!
# Giving up privileges

Once the sockets are bound, the server changes to the user and the group of its configuration
(`switchUserAndGroup`, `SwitchUserAndGroup`). What the system allows depends on who the process
is (`Credentials`): only with the effective user `0` may it take on an id other than its own.

The user is changed first, which gives up the right to change the group: the group is changed
only if it is the one the process has already, or if the user is still root
(`dropsPrivileges_iff`).
-/

namespace Nbstftp

/-! ## Credentials -/

/-- Whom a process runs as. -/
structure Credentials where
  uid : UInt32
  euid : UInt32
  gid : UInt32
  deriving DecidableEq

namespace Credentials

/-- The process is run by root. -/
def IsRoot (c : Credentials) : Prop := c.uid = 0 ∧ c.euid = 0

/-- `EPERM`. -/
def eperm : Errno := .other 1

/-- `setuid`. -/
def setuid (c : Credentials) (uid : UInt32) : Except Errno Credentials :=
  if c.euid = 0 ∨ uid = c.uid then .ok { c with uid := uid, euid := uid } else .error eperm

/-- `setgid`. -/
def setgid (c : Credentials) (gid : UInt32) : Except Errno Credentials :=
  if c.euid = 0 ∨ gid = c.gid then .ok { c with gid := gid } else .error eperm

theorem setuid_of_isRoot {c : Credentials} (h : c.IsRoot) (uid : UInt32) :
    c.setuid uid = .ok { c with uid := uid, euid := uid } :=
  if_pos (.inl h.2)

/-- A user that is taken on is the effective one too, and the group is kept. -/
theorem of_setuid {c c' : Credentials} {uid : UInt32} (h : c.setuid uid = .ok c') :
    c' = ⟨uid, uid, c.gid⟩ := by
  rw [setuid] at h
  split at h
  · exact (Except.ok.inj h).symm
  · cases h

theorem of_setgid {c c' : Credentials} {gid : UInt32} (h : c.setgid gid = .ok c') :
    c' = { c with gid := gid } := by
  rw [setgid] at h
  split at h
  · exact (Except.ok.inj h).symm
  · cases h

end Credentials

/-! ## The accounts of the system -/

/-- The ids of a user: its own, and that of its primary group (`struct passwd`). -/
structure Passwd where
  uid : UInt32
  gid : UInt32
  deriving DecidableEq

/-- The users and groups there are, and what a process may access. -/
structure UserDatabase where
  getpwnam : Bytes → Except Errno Passwd
  /-- The id of a group (`struct group`). -/
  getgrnam : Bytes → Except Errno UInt32
  /-- `access` succeeds. -/
  access : Credentials → Bytes → AccessMode → Bool
  strerror : Errno → Bytes

/-- What `SwitchUserAndGroup` returns, whom the process runs as then, and what is printed. -/
structure Switching where
  code : ℕ
  cred : Credentials
  stderr : Bytes

namespace UserDatabase

variable (os : UserDatabase) (directory user group : Option Bytes)

/-- A call that fails on a name, as it is reported. -/
def cannot (call name : Bytes) (e : Errno) : Bytes :=
  ascii "Cannot " ++ call ++ ascii " " ++ name ++ ascii ": " ++ os.strerror e ++ ascii "\n"

/-- `%s` of a string that may be null. -/
def printed (s : Option Bytes) : Bytes := s.getD (ascii "(null)")

/-- The end of `SwitchUserAndGroup`: can the files be read, can they be written? -/
def checkDirectory (c : Credentials) : Switching :=
  let r := directory.any fun d => os.access c d .readOK
  let w := directory.any fun d => os.access c d .writeOK
  let warning (what : Bytes) : Bytes :=
    ascii "WARNING: \"" ++ printed user ++ ascii ":" ++ printed group ++ ascii "\" cannot " ++
      what ++ ascii " serve folder \"" ++ printed directory ++ ascii "\""
  match r, w with
  | false, false =>
    ⟨1, c, ascii "FATAL: Cannot read or write files in " ++ printed directory ++ ascii "\n"⟩
  | false, true => ⟨0, c, warning (ascii "read")⟩
  | true, false => ⟨0, c, warning (ascii "write to")⟩
  | true, true => ⟨0, c, []⟩

/-- `SwitchUserAndGroup` from the group on. -/
def switchGroup (c : Credentials) : Switching :=
  match group with
  | none => os.checkDirectory directory user group c
  | some g =>
    match os.getgrnam g with
    | .error e => ⟨1, c, os.cannot (ascii "getgrnam") g e⟩
    | .ok gid =>
      match c.setgid gid with
      | .error e => ⟨1, c, os.cannot (ascii "setgid to") g e⟩
      | .ok c => os.checkDirectory directory user group c

/-- `SwitchUserAndGroup`. -/
def switchUserAndGroup (c : Credentials) : Switching :=
  match user with
  | none => if group = none then ⟨0, c, []⟩ else os.switchGroup directory user group c
  | some u =>
    match os.getpwnam u with
    | .error e => ⟨1, c, os.cannot (ascii "getpwnam") u e⟩
    | .ok pass =>
      match c.setuid pass.uid with
      | .error e => ⟨1, c, os.cannot (ascii "setuid to") u e⟩
      | .ok c =>
        if group = some u then
          match c.setgid pass.gid with
          | .error e => ⟨1, c, os.cannot (ascii "setgid to") u e⟩
          | .ok c => ⟨0, c, []⟩
        else os.switchGroup directory user group c

/-- `main` enters its idle loop. -/
def enters (c : Credentials) : Bool := (os.switchUserAndGroup directory user group c).code != 1

/-! ## Whom the server is to run as -/

/-- The id of the configured user. -/
def targetUid : Option UInt32 := user.bind fun u => (os.getpwnam u).toOption.map (·.uid)

/-- The id of the configured group; that of a group named like the user is the user's. -/
def targetGid : Option UInt32 :=
  group.bind fun g =>
    if user = some g then (os.getpwnam g).toOption.map (·.gid) else (os.getgrnam g).toOption

/-- The configured user and group exist. -/
structure Known : Prop where
  uid : user ≠ none → os.targetUid user ≠ none
  gid : group ≠ none → os.targetGid user group ≠ none

/-- The process with the ids that are configured. -/
def target (c : Credentials) : Credentials where
  uid := (os.targetUid user).getD c.uid
  euid := (os.targetUid user).getD c.euid
  gid := (os.targetGid user group).getD c.gid

/-- The directory can be read or written to. -/
def Accessible (c : Credentials) : Prop :=
  ∃ d, directory = some d ∧ (os.access c d .readOK ∨ os.access c d .writeOK)

/-- No configured id is left unswitched. -/
structure Switched (c : Credentials) : Prop where
  uid : user ≠ none → os.targetUid user = some c.uid ∧ c.euid = c.uid
  gid : group ≠ none → os.targetGid user group = some c.gid

/-- Privileges are given up completely: whom root configured is switched to if it exists and
    can access the directory, and no success is reported otherwise. -/
structure DropsPrivileges (c : Credentials) : Prop where
  complete : c.IsRoot → os.Known user group →
    os.Accessible directory (os.target user group c) →
    (os.switchUserAndGroup directory user group c).code = 0 ∧
      os.Switched user group (os.switchUserAndGroup directory user group c).cred
  sound : (os.switchUserAndGroup directory user group c).code = 0 →
    os.Switched user group (os.switchUserAndGroup directory user group c).cred

/-- What is left of the right to change the group once the user is changed is enough: there
    is nothing to change after the user, or the user is root. -/
def GidInReach (c : Credentials) : Prop :=
  user = none ∨ group = none ∨ os.targetUid user = some 0 ∨
    os.targetGid user group = some c.gid

variable {os directory user group}

/-! ## What is switched -/

theorem targetUid_eq_some_iff {u : Bytes} {uid : UInt32} :
    os.targetUid (some u) = some uid ↔ ∃ pass, os.getpwnam u = .ok pass ∧ pass.uid = uid := by
  cases h : os.getpwnam u <;> simp [targetUid, h, Except.toOption]

/-- The id of a group named like the user. -/
theorem targetGid_self {u : Bytes} {pass : Passwd} (h : os.getpwnam u = .ok pass) :
    os.targetGid (some u) (some u) = some pass.gid := by
  simp [targetGid, h, Except.toOption]

/-- The id of any other group. -/
theorem targetGid_of_ne {g : Bytes} {gid : UInt32} (h : user ≠ some g) :
    os.targetGid user (some g) = some gid ↔ os.getgrnam g = .ok gid := by
  cases hg : os.getgrnam g <;> simp [targetGid, h, hg, Except.toOption]

/-- Checking the directory changes nothing. -/
@[simp] theorem checkDirectory_cred (c : Credentials) :
    (os.checkDirectory directory user group c).cred = c := by
  rw [checkDirectory]
  split <;> rfl

/-- The directory passes the check if it is accessible. -/
theorem checkDirectory_code_iff (c : Credentials) :
    (os.checkDirectory directory user group c).code = 0 ↔ os.Accessible directory c := by
  rw [checkDirectory, Accessible]
  cases directory with
  | none => simp
  | some d =>
    cases hr : os.access c d .readOK <;> cases hw : os.access c d .writeOK <;> simp [hr, hw]

/-- A group other than the user's is switched to if the process may. -/
theorem switchGroup_eq {c : Credentials} {g : Bytes} {gid : UInt32} (hg : os.getgrnam g = .ok gid)
    (h : c.euid = 0 ∨ gid = c.gid) :
    os.switchGroup directory user (some g) c =
      os.checkDirectory directory user (some g) { c with gid := gid } := by
  have hset : c.setgid gid = .ok { c with gid := gid } := if_pos h
  simp only [switchGroup, hg, hset]

/-- The two reasons to fail there: the group is out of reach, or the directory. -/
theorem switchGroup_code_iff {c : Credentials} {g : Bytes} {gid : UInt32}
    (hg : os.getgrnam g = .ok gid) :
    (os.switchGroup directory user (some g) c).code = 0 ↔
      (c.euid = 0 ∨ gid = c.gid) ∧ os.Accessible directory { c with gid := gid } := by
  by_cases h : c.euid = 0 ∨ gid = c.gid
  · rw [switchGroup_eq hg h, checkDirectory_code_iff, and_iff_right h]
  · have hset : c.setgid gid = .error Credentials.eperm := if_neg h
    simp [switchGroup, hg, hset, h]

/-- The group is switched whenever that part succeeds, and the user is kept. -/
theorem switchGroup_sound {c : Credentials}
    (h : (os.switchGroup directory user group c).code = 0) (hne : group = none ∨ user ≠ group) :
    ∃ gid, (os.switchGroup directory user group c).cred = { c with gid := gid } ∧
      (group ≠ none → os.targetGid user group = some gid) := by
  cases group with
  | none => exact ⟨c.gid, checkDirectory_cred c, fun h => absurd rfl h⟩
  | some g =>
    have hne : user ≠ some g := hne.resolve_left (Option.some_ne_none g)
    cases hg : os.getgrnam g with
    | error e => simp [switchGroup, hg] at h
    | ok gid =>
      have hgid : c.euid = 0 ∨ gid = c.gid := ((switchGroup_code_iff hg).1 h).1
      refine ⟨gid, ?_, fun _ => (targetGid_of_ne hne).2 hg⟩
      rw [switchGroup_eq hg hgid, checkDirectory_cred]

/-! ## The three paths -/

/-- Only a group is configured. -/
theorem switchUserAndGroup_none {c : Credentials} (h : group ≠ none) :
    os.switchUserAndGroup directory none group c = os.switchGroup directory none group c :=
  if_neg h

/-- A group named like the user: the user's primary group. -/
theorem switchUserAndGroup_self {c c' : Credentials} {u : Bytes} {pass : Passwd}
    (hp : os.getpwnam u = .ok pass) (hset : c.setuid pass.uid = .ok c') :
    os.switchUserAndGroup directory (some u) (some u) c =
      match c'.setgid pass.gid with
      | .error e => ⟨1, c', os.cannot (ascii "setgid to") u e⟩
      | .ok c => ⟨0, c, []⟩ := by
  simp only [switchUserAndGroup, hp, hset, if_true]

/-- Any other group, or none, comes after the user. -/
theorem switchUserAndGroup_of_ne {c c' : Credentials} {u : Bytes} {pass : Passwd}
    (hp : os.getpwnam u = .ok pass) (hset : c.setuid pass.uid = .ok c') (h : group ≠ some u) :
    os.switchUserAndGroup directory (some u) group c =
      os.switchGroup directory (some u) group c' := by
  simp only [switchUserAndGroup, hp, hset, if_neg h]

/-- Whatever is configured is switched whenever success is reported. -/
theorem switchUserAndGroup_sound {c : Credentials}
    (h : (os.switchUserAndGroup directory user group c).code = 0) :
    os.Switched user group (os.switchUserAndGroup directory user group c).cred := by
  cases user with
  | none =>
    by_cases hnone : group = none
    · subst hnone
      exact ⟨fun h => absurd rfl h, fun h => absurd rfl h⟩
    · rw [switchUserAndGroup_none hnone] at h ⊢
      obtain ⟨gid, hcred, hgid⟩ := switchGroup_sound h (.inr (Ne.symm hnone))
      rw [hcred]
      exact ⟨fun h => absurd rfl h, hgid⟩
  | some u =>
    cases hp : os.getpwnam u with
    | error e => simp [switchUserAndGroup, hp] at h
    | ok pass =>
      have huid : os.targetUid (some u) = some pass.uid := targetUid_eq_some_iff.2 ⟨pass, hp, rfl⟩
      cases hset : c.setuid pass.uid with
      | error e => simp [switchUserAndGroup, hp, hset] at h
      | ok c' =>
        obtain rfl := Credentials.of_setuid hset
        by_cases hsame : group = some u
        · -- The group is the primary one of the user.
          subst hsame
          rw [switchUserAndGroup_self hp hset] at h ⊢
          cases hgid : Credentials.setgid ⟨pass.uid, pass.uid, c.gid⟩ pass.gid with
          | error e => simp [hgid] at h
          | ok c'' =>
            obtain rfl := Credentials.of_setgid hgid
            exact ⟨fun _ => ⟨huid, rfl⟩, fun _ => targetGid_self hp⟩
        · rw [switchUserAndGroup_of_ne hp hset hsame] at h ⊢
          obtain ⟨gid, hcred, hgid⟩ := switchGroup_sound h (.inr (Ne.symm hsame))
          rw [hcred]
          exact ⟨fun _ => ⟨huid, rfl⟩, hgid⟩

/-- `SwitchUserAndGroup` returns `0` or `1`. -/
theorem switchUserAndGroup_code_le (c : Credentials) :
    (os.switchUserAndGroup directory user group c).code ≤ 1 := by
  have hdir (c : Credentials) : (os.checkDirectory directory user group c).code ≤ 1 := by
    rw [checkDirectory]
    split <;> simp
  have hgroup (c : Credentials) : (os.switchGroup directory user group c).code ≤ 1 := by
    rw [switchGroup.eq_def]
    repeat' split
    all_goals first | exact hdir _ | exact Nat.le_refl 1
  rw [switchUserAndGroup.eq_def]
  repeat' split
  all_goals first | exact hgroup _ | exact Nat.zero_le 1 | exact Nat.le_refl 1

/-- The server runs only as whom it is configured to. -/
theorem switched_of_enters {c : Credentials} (h : os.enters directory user group c = true) :
    os.Switched user group (os.switchUserAndGroup directory user group c).cred := by
  have hle : (os.switchUserAndGroup directory user group c).code ≤ 1 :=
    switchUserAndGroup_code_le c
  rw [enters, bne_iff_ne] at h
  exact switchUserAndGroup_sound (by omega)

/-- If root's configuration exists and the directory is accessible, what decides is whether the
    group is still in reach. -/
theorem switchUserAndGroup_code_iff {c : Credentials} (hc : c.IsRoot) (hk : os.Known user group)
    (ha : os.Accessible directory (os.target user group c)) :
    (os.switchUserAndGroup directory user group c).code = 0 ↔ os.GidInReach user group c := by
  cases user with
  | none =>
    refine iff_of_true ?_ (.inl rfl)
    cases group with
    | none => rfl
    | some g =>
      obtain ⟨gid, hgid⟩ := Option.ne_none_iff_exists'.1 (hk.gid (Option.some_ne_none g))
      have hg : os.getgrnam g = .ok gid := (targetGid_of_ne (Option.some_ne_none g).symm).1 hgid
      rw [target, hgid] at ha
      -- The process is root still.
      rw [switchUserAndGroup_none (Option.some_ne_none g), switchGroup_code_iff hg]
      exact ⟨.inl hc.2, ha⟩
  | some u =>
    obtain ⟨uid, huid⟩ := Option.ne_none_iff_exists'.1 (hk.uid (Option.some_ne_none u))
    obtain ⟨pass, hp, rfl⟩ := targetUid_eq_some_iff.1 huid
    have hset := Credentials.setuid_of_isRoot hc pass.uid
    cases group with
    | none =>
      refine iff_of_true ?_ (.inr (.inl rfl))
      rw [target, huid] at ha
      rw [switchUserAndGroup_of_ne hp hset (Option.some_ne_none u).symm, switchGroup,
        checkDirectory_code_iff]
      exact ha
    | some g =>
      obtain ⟨gid, hgid⟩ := Option.ne_none_iff_exists'.1 (hk.gid (Option.some_ne_none g))
      have hreach : os.GidInReach (some u) (some g) c ↔ pass.uid = 0 ∨ gid = c.gid := by
        simp [GidInReach, huid, hgid]
      rw [target, huid, hgid] at ha
      rw [hreach]
      -- Both paths set the group last, with the effective id of the user.
      by_cases hsame : g = u
      · subst hsame
        obtain rfl : pass.gid = gid := Option.some.inj ((targetGid_self hp).symm.trans hgid)
        rw [switchUserAndGroup_self hp hset, Credentials.setgid]
        split_ifs with h <;> simpa using h
      · have hne : some u ≠ some g := fun h => hsame (Option.some.inj h).symm
        rw [switchUserAndGroup_of_ne hp hset hne.symm,
          switchGroup_code_iff ((targetGid_of_ne hne).1 hgid)]
        exact and_iff_left ha

/-- Privileges are given up completely as long as the group is still in reach once the user is
    changed. -/
theorem dropsPrivileges_iff (os : UserDatabase) (directory user group : Option Bytes)
    (c : Credentials) :
    os.DropsPrivileges directory user group c ↔
      (c.IsRoot → os.Known user group → os.Accessible directory (os.target user group c) →
        os.GidInReach user group c) := by
  constructor
  · intro h hc hk ha
    exact (switchUserAndGroup_code_iff hc hk ha).1 (h.complete hc hk ha).1
  · intro h
    refine ⟨fun hc hk ha => ?_, switchUserAndGroup_sound⟩
    have hcode := (switchUserAndGroup_code_iff hc hk ha).2 (h hc hk ha)
    exact ⟨hcode, switchUserAndGroup_sound hcode⟩

/-- A system whose server has a user and a group of its own. -/
def tftpUsers : UserDatabase where
  getpwnam _ := .ok ⟨99, 99⟩
  getgrnam _ := .ok 99
  access _ _ _ := true
  strerror _ := []

/-- Root, configured to run as that user and group, fails to take on the group. -/
theorem not_dropsPrivileges :
    ¬tftpUsers.DropsPrivileges (some (ascii "/srv/tftp")) (some (ascii "tftp"))
      (some (ascii "tftp")) ⟨0, 0, 0⟩ := by
  intro h
  have hcode := (h.complete ⟨rfl, rfl⟩ ⟨fun _ => by decide, fun _ => by decide⟩
    ⟨_, rfl, .inl rfl⟩).1
  revert hcode
  decide

end UserDatabase

end Nbstftp
