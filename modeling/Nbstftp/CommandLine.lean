import Nbstftp.CString

/-!
# The command line

`HandleArguments` goes through the arguments one by one, the name of the program included. An
argument that starts with a dash is an option, and any other one is taken for the configuration
file once a `-c` or `--config` has been seen: `wait_for_conf` is set there and never cleared.

So the last argument that is no option wins (`selectsConfig_iff`), be it the one that follows the
last `-c` or not; and a `-c` with another option behind it is not noticed.
-/

namespace Nbstftp

/-! ## The loop of `HandleArguments` -/

/-- What makes `HandleArguments` exit. -/
inductive ArgumentExit
  | help
  | license
  | version
  | unknown (arg : Bytes)
  /-- There is no argument behind a `-c` or `--config`. -/
  | noConfig
  deriving DecidableEq

/-- The error printed then; a help text follows that of an unknown argument. -/
def ArgumentExit.stderr : ArgumentExit → Bytes
  | .unknown arg => ascii "Unknown argument: \"" ++ arg ++ ascii "\"\n"
  | .noConfig => ascii "You must specify a config file!\n"
  | .help | .license | .version => []

/-- The globals set on the command line, and `wait_for_conf`. -/
structure Arguments where
  nofork : Int
  configfile : Option Bytes
  waitForConf : Bool
  deriving DecidableEq

/-- Before the first argument. -/
def Arguments.initial : Arguments := ⟨-1, none, false⟩

/-- An option, behind its dashes, by the names there are for what it can be; `last` says that no
    argument is left. -/
def handleOption (help license nofork version config : Bytes) (last : Bool) (arg : Bytes)
    (s : Arguments) : Except ArgumentExit Arguments :=
  if strcasecmp arg help = 0 then .error .help
  else if strcasecmp arg license = 0 then .error .license
  else if strcasecmp arg nofork = 0 then .ok { s with nofork := 1 }
  else if strcasecmp arg version = 0 then .error .version
  else if strcasecmp arg config = 0 then
    if last then .error .noConfig else .ok { s with waitForConf := true }
  else .error (.unknown arg)

/-- Options with two dashes. -/
def handleLong : Bool → Bytes → Arguments → Except ArgumentExit Arguments :=
  handleOption (ascii "help") (ascii "license") (ascii "nofork") (ascii "version")
    (ascii "config")

/-- Options with one dash. -/
def handleShort : Bool → Bytes → Arguments → Except ArgumentExit Arguments :=
  handleOption (ascii "h") (ascii "l") (ascii "f") (ascii "v") (ascii "c")

/-- The body of the loop (`45` is the dash). -/
def handleArgument (last : Bool) (arg : Bytes) (s : Arguments) : Except ArgumentExit Arguments :=
  match arg with
  | 45 :: 45 :: name => handleLong last name s
  | 45 :: name => handleShort last name s
  | arg => .ok (if s.waitForConf then { s with configfile := some arg } else s)

/-- `HandleArguments`. -/
def handleArguments : List Bytes → Arguments → Except ArgumentExit Arguments
  | [], s => .ok s
  | arg :: args, s =>
    match handleArgument args.isEmpty arg s with
    | .error e => .error e
    | .ok s => handleArguments args s

/-! ## The kinds of arguments -/

/-- An argument that is no option. -/
def isFile (arg : Bytes) : Bool := arg.head? != some 45

def isConfig (arg : Bytes) : Bool :=
  strcasecmp arg (ascii "--config") == 0 || strcasecmp arg (ascii "-c") == 0

def isNofork (arg : Bytes) : Bool :=
  strcasecmp arg (ascii "--nofork") == 0 || strcasecmp arg (ascii "-f") == 0

/-- There is no help, license, version or unknown option. -/
def Regular (args : List Bytes) : Prop :=
  ∀ arg ∈ args, isFile arg = true ∨ isConfig arg = true ∨ isNofork arg = true

instance (args : List Bytes) : Decidable (Regular args) :=
  inferInstanceAs (Decidable (∀ arg ∈ args, _))

/-- A `-c` or `--config` at the end, or with another option behind it. -/
def Dangling (args : List Bytes) : Prop :=
  ∃ before arg after, args = before ++ arg :: after ∧ isConfig arg = true ∧
    ∀ file ∈ after.head?, isFile file = false

/-- The argument behind the last `-c` or `--config`. -/
def Selects (args : List Bytes) (file : Bytes) : Prop :=
  ∃ before arg after, args = before ++ arg :: file :: after ∧ isConfig arg = true ∧
    isFile file = true ∧ ∀ a ∈ after, isConfig a = false

/-- The file selected is the one behind the last `-c` or `--config`, and each of them has one. -/
structure SelectsConfig (args : List Bytes) : Prop where
  reported : Dangling args → handleArguments args .initial = .error .noConfig
  selected : ¬Dangling args → ∀ file, Selects args file →
    ∃ s, handleArguments args .initial = .ok s ∧ s.configfile = some file
  unset : (∀ a ∈ args, isConfig a = false) →
    ∃ s, handleArguments args .initial = .ok s ∧ s.configfile = none

/-! ## What an argument does -/

/-- Two names start with different letters. -/
def startApart : Bytes → Bytes → Bool
  | a :: _, b :: _ => tolower a != 0 && tolower a != tolower b
  | _, _ => false

/-- A string is, up to case, at most one of two names that start apart. -/
theorem strcasecmp_ne_zero {name as bs : Bytes} (h : strcasecmp name as = 0)
    (hab : startApart as bs = true) : strcasecmp name bs ≠ 0 := by
  intro h'
  match as, bs, hab with
  | a :: as, b :: bs, hab =>
    rw [startApart, Bool.and_eq_true, bne_iff_ne, bne_iff_ne] at hab
    cases name with
    | nil =>
      refine hab.1 (UInt8.toNat_inj.1 ?_)
      simpa [strcasecmp] using h
    | cons c name =>
      exact hab.2 ((tolower_eq_of_strcasecmp h).symm.trans (tolower_eq_of_strcasecmp h'))

/-- The option that asks for a configuration file. -/
theorem handleOption_config {help license nofork version config arg : Bytes}
    (h : strcasecmp arg config = 0)
    (hapart : [help, license, nofork, version].all (startApart config) = true) (last : Bool)
    (s : Arguments) :
    handleOption help license nofork version config last arg s =
      if last then .error .noConfig else .ok { s with waitForConf := true } := by
  simp only [List.all_cons, List.all_nil, Bool.and_true, Bool.and_eq_true] at hapart
  obtain ⟨hhelp, hlicense, hnofork, hversion⟩ := hapart
  rw [handleOption, if_neg (strcasecmp_ne_zero h hhelp), if_neg (strcasecmp_ne_zero h hlicense),
    if_neg (strcasecmp_ne_zero h hnofork), if_neg (strcasecmp_ne_zero h hversion), if_pos h]

/-- The option that keeps the server in the foreground. -/
theorem handleOption_nofork {help license nofork version config arg : Bytes}
    (h : strcasecmp arg nofork = 0) (hapart : [help, license].all (startApart nofork) = true)
    (last : Bool) (s : Arguments) :
    handleOption help license nofork version config last arg s = .ok { s with nofork := 1 } := by
  simp only [List.all_cons, List.all_nil, Bool.and_true, Bool.and_eq_true] at hapart
  rw [handleOption, if_neg (strcasecmp_ne_zero h hapart.1),
    if_neg (strcasecmp_ne_zero h hapart.2), if_pos h]

theorem eq_dash {b : UInt8} (h : tolower b = 45) : b = 45 := by
  rw [tolower] at h
  split_ifs at h with hb
  · -- A capital letter is no dash in lower case.
    have hsum := congrArg UInt8.toNat h
    rw [UInt8.le_iff_toNat_le, UInt8.le_iff_toNat_le] at hb
    rw [UInt8.toNat_add] at hsum
    simp only [UInt8.reduceToNat] at hb hsum
    omega
  · exact h

/-- A string that is a name with a dash up to case has the dash. -/
theorem strcasecmp_dash {arg name : Bytes} (h : strcasecmp arg (45 :: name) = 0) :
    ∃ rest, arg = 45 :: rest ∧ strcasecmp rest name = 0 := by
  cases arg with
  | nil => exact absurd h (by simp [strcasecmp, tolower])
  | cons b rest =>
    obtain rfl : b = 45 := eq_dash (tolower_eq_of_strcasecmp h)
    exact ⟨rest, rfl, by simpa [strcasecmp] using h⟩

/-- What an argument does that is no help, license, version or unknown option. -/
theorem handleArgument_file {arg : Bytes} (h : isFile arg = true) (last : Bool) (s : Arguments) :
    handleArgument last arg s =
      .ok (if s.waitForConf then { s with configfile := some arg } else s) := by
  match arg, h with
  | [], _ => rfl
  | b :: name, h =>
    have hb : b ≠ 45 := by simpa [isFile] using h
    rw [handleArgument]
    · exact fun _ hdash => hb (List.cons.inj hdash).1
    · exact fun _ hdash => hb (List.cons.inj hdash).1

/-- A short option is told from a long one by its second byte. -/
theorem handleArgument_short {name letter : Bytes} (h : strcasecmp name letter = 0)
    (hletter : startApart letter [45] = true) (last : Bool) (s : Arguments) :
    handleArgument last (45 :: name) s = handleShort last name s := by
  rw [handleArgument]
  rintro rest rfl
  match letter, hletter with
  | b :: letter, hletter =>
    rw [startApart, Bool.and_eq_true, bne_iff_ne, bne_iff_ne] at hletter
    exact hletter.2 (tolower_eq_of_strcasecmp h).symm

theorem handleArgument_config {arg : Bytes} (h : isConfig arg = true) (last : Bool)
    (s : Arguments) :
    handleArgument last arg s =
      if last then .error .noConfig else .ok { s with waitForConf := true } := by
  rw [isConfig, Bool.or_eq_true, beq_iff_eq, beq_iff_eq] at h
  rcases h with h | h
  · have hdash : strcasecmp arg (45 :: 45 :: ascii "config") = 0 := h
    obtain ⟨rest, rfl, hrest⟩ := strcasecmp_dash hdash
    obtain ⟨name, rfl, hname⟩ := strcasecmp_dash hrest
    exact handleOption_config hname (by decide) last s
  · have hdash : strcasecmp arg (45 :: ascii "c") = 0 := h
    obtain ⟨name, rfl, hname⟩ := strcasecmp_dash hdash
    rw [handleArgument_short hname (by decide)]
    exact handleOption_config hname (by decide) last s

theorem handleArgument_nofork {arg : Bytes} (h : isNofork arg = true) (last : Bool)
    (s : Arguments) : handleArgument last arg s = .ok { s with nofork := 1 } := by
  rw [isNofork, Bool.or_eq_true, beq_iff_eq, beq_iff_eq] at h
  rcases h with h | h
  · have hdash : strcasecmp arg (45 :: 45 :: ascii "nofork") = 0 := h
    obtain ⟨rest, rfl, hrest⟩ := strcasecmp_dash hdash
    obtain ⟨name, rfl, hname⟩ := strcasecmp_dash hrest
    exact handleOption_nofork hname (by decide) last s
  · have hdash : strcasecmp arg (45 :: ascii "f") = 0 := h
    obtain ⟨name, rfl, hname⟩ := strcasecmp_dash hdash
    rw [handleArgument_short hname (by decide)]
    exact handleOption_nofork hname (by decide) last s

/-- An option is no file. -/
theorem isFile_of_strcasecmp {arg name : Bytes} (h : strcasecmp arg (45 :: name) = 0) :
    isFile arg = false := by
  obtain ⟨rest, rfl, -⟩ := strcasecmp_dash h
  rfl

theorem isFile_of_isConfig {arg : Bytes} (h : isConfig arg = true) : isFile arg = false := by
  rw [isConfig, Bool.or_eq_true, beq_iff_eq, beq_iff_eq] at h
  exact h.elim (isFile_of_strcasecmp ·) (isFile_of_strcasecmp ·)

theorem isFile_of_isNofork {arg : Bytes} (h : isNofork arg = true) : isFile arg = false := by
  rw [isNofork, Bool.or_eq_true, beq_iff_eq, beq_iff_eq] at h
  exact h.elim (isFile_of_strcasecmp ·) (isFile_of_strcasecmp ·)

/-- What asks for a file is not what keeps the server in the foreground. -/
theorem isConfig_of_isNofork {arg : Bytes} (h : isNofork arg = true) : isConfig arg = false := by
  by_contra hconfig
  have hboth := (handleArgument_config (eq_true_of_ne_false hconfig) false .initial).symm.trans
    (handleArgument_nofork h false .initial)
  exact absurd hboth (by decide)

/-! ## The outcome of the loop -/

/-- What an argument other than a last `-c` changes. -/
def Arguments.read (s : Arguments) (arg : Bytes) : Arguments :=
  if isFile arg then (if s.waitForConf then { s with configfile := some arg } else s)
  else if isConfig arg then { s with waitForConf := true }
  else { s with nofork := 1 }

/-- The arguments end in a `-c` or `--config`. -/
def EndsInConfig (args : List Bytes) : Prop := ∃ arg ∈ args.getLast?, isConfig arg = true

theorem endsInConfig_cons {arg : Bytes} {args : List Bytes} (h : args ≠ []) :
    EndsInConfig (arg :: args) ↔ EndsInConfig args := by
  rw [EndsInConfig, EndsInConfig, List.getLast?_cons_of_ne_nil h]

theorem endsInConfig_singleton {arg : Bytes} : EndsInConfig [arg] ↔ isConfig arg = true := by
  simp [EndsInConfig]

/-- One argument is read after the other, up to a last `-c`. -/
theorem handleArguments_cons {arg : Bytes} {args : List Bytes} (hreg : Regular (arg :: args))
    (s : Arguments) :
    handleArguments (arg :: args) s =
      if isConfig arg ∧ args = [] then .error .noConfig else handleArguments args (s.read arg) := by
  rw [handleArguments, Arguments.read]
  rcases hreg arg List.mem_cons_self with h | h | h
  · have hconfig : isConfig arg = false := by
      by_contra h'
      rw [isFile_of_isConfig (eq_true_of_ne_false h')] at h
      exact Bool.false_ne_true h
    simp [handleArgument_file h, h, hconfig]
  · rw [handleArgument_config h, isFile_of_isConfig h]
    cases args <;> simp [h]
  · simp [handleArgument_nofork h, isFile_of_isNofork h, isConfig_of_isNofork h]

/-- Arguments that end in a `-c` are refused, and all others read. -/
theorem handleArguments_eq {args : List Bytes} (hreg : Regular args) (s : Arguments) :
    (EndsInConfig args → handleArguments args s = .error .noConfig) ∧
      (¬EndsInConfig args → handleArguments args s = .ok (args.foldl Arguments.read s)) := by
  induction args generalizing s with
  | nil => exact ⟨fun ⟨_, h, _⟩ => absurd h (by simp), fun _ => rfl⟩
  | cons arg args ih =>
    rw [handleArguments_cons hreg, List.foldl_cons]
    -- Whether a `-c` is the last argument is decided at the last one.
    by_cases hnil : args = []
    · subst hnil
      rw [endsInConfig_singleton]
      by_cases h : isConfig arg = true <;> simp [h, handleArguments]
    · rw [endsInConfig_cons hnil, if_neg fun h => hnil h.2]
      exact ih (fun a ha => hreg a (List.mem_cons_of_mem arg ha)) _

/-- Once a `-c` has been seen, every file replaces the one before. -/
theorem configfile_foldl_read {args : List Bytes} {s : Arguments} (hs : s.waitForConf = true) :
    (args.foldl Arguments.read s).configfile =
      (args.filter isFile).getLast?.or s.configfile := by
  induction args generalizing s with
  | nil => rfl
  | cons arg args ih =>
    -- The flag is never reset.
    have hwait : (s.read arg).waitForConf = true := by
      rw [Arguments.read]
      split_ifs <;> simp [hs]
    rw [List.foldl_cons, ih hwait, Arguments.read]
    by_cases h : isFile arg = true
    · rw [if_pos h, if_pos hs, List.filter_cons_of_pos h, List.getLast?_cons]
      cases (args.filter isFile).getLast? <;> rfl
    · rw [if_neg h, List.filter_cons_of_neg h]
      split_ifs <;> rfl

/-- Without one, no file is taken. -/
theorem configfile_foldl_read_of_forall {args : List Bytes} {s : Arguments}
    (hs : s.waitForConf = false) (h : ∀ a ∈ args, isConfig a = false) :
    (args.foldl Arguments.read s).configfile = s.configfile := by
  induction args generalizing s with
  | nil => rfl
  | cons arg args ih =>
    have hread : (s.read arg).waitForConf = false ∧ (s.read arg).configfile = s.configfile := by
      rw [Arguments.read, h arg List.mem_cons_self]
      split_ifs <;> simp_all
    rw [List.foldl_cons, ih hread.1 fun a ha => h a (List.mem_cons_of_mem arg ha), hread.2]

/-- Where a `-c` is followed by a file, the last file wins. -/
theorem configfile_of_selects {args : List Bytes} {file : Bytes} (h : Selects args file)
    (s : Arguments) :
    (args.foldl Arguments.read s).configfile = (args.filter isFile).getLast? := by
  obtain ⟨before, arg, after, rfl, hconfig, hfile, -⟩ := h
  have hwait (s : Arguments) : (s.read arg).waitForConf = true := by
    rw [Arguments.read, isFile_of_isConfig hconfig, hconfig]
    rfl
  have hkept : (arg :: file :: after).filter isFile = file :: after.filter isFile := by
    rw [List.filter_cons_of_neg (Bool.eq_false_iff.1 (isFile_of_isConfig hconfig)),
      List.filter_cons_of_pos hfile]
  rw [List.foldl_append, List.foldl_cons, configfile_foldl_read (hwait _), List.filter_append,
    hkept, List.filter_cons_of_pos hfile, List.getLast?_append, List.getLast?_cons]
  rfl

theorem dangling_cons {arg : Bytes} {args : List Bytes} : Dangling (arg :: args) ↔
    (isConfig arg = true ∧ ∀ file ∈ args.head?, isFile file = false) ∨ Dangling args := by
  constructor
  · rintro ⟨before, a, after, h, ha⟩
    rcases List.cons_eq_append_iff.1 h with ⟨-, h⟩ | ⟨before, -, rfl⟩
    · obtain ⟨rfl, rfl⟩ := List.cons.inj h
      exact .inl ha
    · exact .inr ⟨before, a, after, rfl, ha⟩
  · rintro (h | ⟨before, a, after, rfl, ha⟩)
    · exact ⟨[], arg, args, rfl, h⟩
    · exact ⟨arg :: before, a, after, rfl, ha⟩

theorem selects_cons {arg file : Bytes} {args : List Bytes} : Selects (arg :: args) file ↔
    (isConfig arg = true ∧ isFile file = true ∧
      ∃ after, args = file :: after ∧ ∀ a ∈ after, isConfig a = false) ∨ Selects args file := by
  constructor
  · rintro ⟨before, a, after, h, ha, hfile, hafter⟩
    rcases List.cons_eq_append_iff.1 h with ⟨-, h⟩ | ⟨before, -, rfl⟩
    · obtain ⟨rfl, rfl⟩ := List.cons.inj h
      exact .inl ⟨ha, hfile, after, rfl, hafter⟩
    · exact .inr ⟨before, a, after, rfl, ha, hfile, hafter⟩
  · rintro (⟨ha, hfile, after, rfl, hafter⟩ | ⟨before, a, after, rfl, ha⟩)
    · exact ⟨[], arg, after, rfl, ha, hfile, hafter⟩
    · exact ⟨arg :: before, a, after, rfl, ha⟩

@[simp] theorem not_dangling_nil : ¬Dangling [] := by
  simp [Dangling]

@[simp] theorem not_selects_nil (file : Bytes) : ¬Selects [] file := by
  simp [Selects]

/-- A `-c` at the end has no file behind it. -/
theorem EndsInConfig.dangling {args : List Bytes} (h : EndsInConfig args) : Dangling args := by
  obtain ⟨arg, hlast, hconfig⟩ := h
  obtain ⟨before, rfl⟩ := List.getLast?_eq_some_iff.1 hlast
  exact ⟨before, arg, [], rfl, hconfig, by simp⟩

/-- The configuration file is selected as documented if the arguments end in a `-c`, or if every
    `-c` is followed by a file and no file comes after that of the last one. -/
theorem selectsConfig_iff {args : List Bytes} (hreg : Regular args) :
    SelectsConfig args ↔ EndsInConfig args ∨
      (¬Dangling args ∧ ∀ file, Selects args file → (args.filter isFile).getLast? = some file) := by
  obtain ⟨hrefused, hread⟩ := handleArguments_eq hreg .initial
  by_cases hends : EndsInConfig args
  · -- The only `-c` that is reported.
    refine iff_of_true ⟨fun _ => hrefused hends, fun h => absurd hends.dangling h, fun h => ?_⟩
      (.inl hends)
    obtain ⟨arg, hlast, hconfig⟩ := hends
    exact absurd (h arg (List.mem_of_mem_getLast? hlast)) (by simp [hconfig])
  · rw [or_iff_right hends]
    constructor
    · intro h
      have hdangling : ¬Dangling args := by
        intro hd
        have herror := h.reported hd
        rw [hread hends] at herror
        cases herror
      refine ⟨hdangling, fun file hfile => ?_⟩
      obtain ⟨s, hs, hconf⟩ := h.selected hdangling file hfile
      rw [hread hends] at hs
      cases hs
      rwa [configfile_of_selects hfile] at hconf
    · rintro ⟨hdangling, hlast⟩
      refine ⟨fun hd => absurd hd hdangling, fun _ file hfile => ⟨_, hread hends, ?_⟩,
        fun hnone => ⟨_, hread hends, configfile_foldl_read_of_forall rfl hnone⟩⟩
      rw [configfile_of_selects hfile, hlast file hfile]

/-- A file behind the only `-c`. -/
theorem selectsConfig_file : SelectsConfig [ascii "nbstftp", ascii "-c", ascii "a.conf"] := by
  have hname : isConfig (ascii "nbstftp") = false := by decide
  have hconf : isConfig (ascii "a.conf") = false := by decide
  have hfile : isFile (ascii "a.conf") = true := by decide
  refine (selectsConfig_iff (by decide)).2 (.inr ⟨?_, fun file h => ?_⟩)
  · simp [dangling_cons, hname, hconf, hfile]
  · obtain rfl : ascii "a.conf" = file := by
      simp only [selects_cons, hname, hconf, Bool.false_eq_true, false_and, false_or,
        not_selects_nil, or_false] at h
      obtain ⟨-, -, after, h, -⟩ := h
      exact (List.cons.inj h).1
    decide

/-- A file after that of the only `-c` is taken instead. -/
theorem not_selectsConfig :
    ¬SelectsConfig [ascii "nbstftp", ascii "-c", ascii "a.conf", ascii "b.conf"] := by
  have hname : isConfig (ascii "nbstftp") = false := by decide
  have hfiles : isFile (ascii "a.conf") = true := by decide
  have hconf : isConfig (ascii "a.conf") = false ∧ isConfig (ascii "b.conf") = false := by decide
  intro h
  have hdangling : ¬Dangling [ascii "nbstftp", ascii "-c", ascii "a.conf", ascii "b.conf"] := by
    simp [dangling_cons, hname, hconf, hfiles]
  have hselects : Selects [ascii "nbstftp", ascii "-c", ascii "a.conf", ascii "b.conf"]
      (ascii "a.conf") :=
    ⟨[ascii "nbstftp"], ascii "-c", [ascii "b.conf"], rfl, by decide, hfiles, by simp [hconf]⟩
  obtain ⟨s, hs, hfile⟩ := h.selected hdangling _ hselects
  have hrun : handleArguments [ascii "nbstftp", ascii "-c", ascii "a.conf", ascii "b.conf"]
      .initial = .ok ⟨-1, some (ascii "b.conf"), true⟩ := by decide
  rw [hrun] at hs
  cases hs
  exact absurd hfile (by decide)

end Nbstftp
