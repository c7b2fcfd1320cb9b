import Deduction.Proofs.Command.Checking

/-!
What a check tells of every file.

A file comes to a report or to a message, and all reports are printed at the end. A file whose path,
bytes, numbers or depth cannot be dealt with ends the program instead, and with it the reports on
the files before it are lost. A report that cannot be printed ends the program as well. So every
file is accounted for exactly if there is no such file and no such report.
-/

namespace Deduction.Command

/-- What a file comes to: a report or a message, after the entries of the log. -/
inductive Account where
  | reported (log : List LogEntry) (report : Report)
  | refused (log : List LogEntry) (message : Text)

namespace Account

def errors (mode : Mode) : Account → List Text
  | .reported log _ => mode.logLines log
  | .refused log message => mode.logLines log ++ [message]

def report? : Account → Option Report
  | .reported _ report => some report
  | .refused _ _ => none

/-- The report or the message is about the file with the path. -/
def Concerns (path : Text) : Account → Prop
  | .reported _ report => report.source = some path
  | .refused _ message => Complaint path message

end Account

/-- The program ends after its work, and its streams hold one account of every file in order. -/
def Accounted (mode : Mode) (json : Bool) (files : List Text) (outcome : Outcome) : Prop :=
  (outcome.status = .finished 0 ∨ outcome.status = .finished 1) ∧
    ∃ accounts, List.Forall₂ Account.Concerns files accounts ∧
      outcome.errors = accounts.flatMap (Account.errors mode) ∧
      outcome.output = shown mode json (accounts.filterMap Account.report?)

section

variable [Limits] {world : World} {path : Text}

/-! ### Single files -/

theorem Holds.exists_account {s : Script Label String} (holds : Holds world path s) (mode : Mode) :
    ∃ account : Account, account.Concerns path ∧
      checkFile world mode path = .ok (account.errors mode, account.report?) := by
  let log := checkingEntry world.start path s :: Report.log s
  rw [holds.checkFile_eq]
  rcases Report.ofScript_cases holds.valid (some path) mode.ascii with
    reported | ⟨-, verdict, -, reported⟩
  · refine ⟨.refused log _, .tooDeep, ?_⟩
    simp [checkScript, reported, Account.errors, Account.report?, log]
  · let report : Report := ⟨s.name, some path, s.goal.render (.select mode.ascii), verdict⟩
    refine ⟨.reported log report, rfl, ?_⟩
    simp [checkScript, reported, Account.errors, Account.report?, log, report]

theorem exists_account (free : ∀ reason, ¬Obstructs world path reason) (mode : Mode) :
    ∃ account : Account, account.Concerns path ∧
      checkFile world mode path = .ok (account.errors mode, account.report?) := by
  rcases checkFile_cases world path with
    ⟨reason, obstructs⟩ | ⟨message, complaint, refused⟩ | ⟨s, holds⟩
  · exact absurd obstructs (free reason)
  · refine ⟨.refused [] message, complaint, ?_⟩
    simp [refused, Account.errors, Account.report?, Mode.logLines]
  · exact holds.exists_account mode

theorem Holds.not_obstructs {s : Script Label String} (holds : Holds world path s)
    {reason : Abort} : ¬Obstructs world path reason := by
  intro obstructs
  obtain ⟨checked, same, -⟩ := holds.exists_checked ⟨.warning, false⟩
  cases same.symm.trans (obstructs.checkFile_eq _)

/-! ### Runs -/

/-- Files that do not end the program are accounted for, whatever comes after them. -/
theorem exists_accounts {before : List Text}
    (free : ∀ path ∈ before, ∀ reason, ¬Obstructs world path reason) (mode : Mode) :
    ∃ accounts, List.Forall₂ Account.Concerns before accounts ∧ ∀ after,
      checkFiles world mode (before ++ after) =
        ⟨accounts.flatMap (Account.errors mode) ++ (checkFiles world mode after).errors,
          accounts.map Account.report? ++ (checkFiles world mode after).reports,
          (checkFiles world mode after).abort⟩ := by
  induction before with
  | nil => exact ⟨[], .nil, fun after => rfl⟩
  | cons path rest ih =>
      obtain ⟨first, others⟩ := List.forall_mem_cons.mp free
      obtain ⟨account, concerns, checked⟩ := exists_account first mode
      obtain ⟨accounts, all, checkedRest⟩ := ih others
      refine ⟨account :: accounts, .cons concerns all, fun after => ?_⟩
      simp [checkFiles, checked, checkedRest]

/-- Without a file that ends the program, the accounts are what the check has come to. -/
theorem exists_accounts_checkFiles {files : List Text}
    (free : ∀ path ∈ files, ∀ reason, ¬Obstructs world path reason) (mode : Mode) :
    ∃ accounts, List.Forall₂ Account.Concerns files accounts ∧
      (checkFiles world mode files).errors = accounts.flatMap (Account.errors mode) ∧
      (checkFiles world mode files).reports.filterMap id = accounts.filterMap Account.report? := by
  obtain ⟨accounts, all, checked⟩ := exists_accounts free mode
  have whole := checked []
  rw [List.append_nil] at whole
  exact ⟨accounts, all, by simp [whole, checkFiles], by simp [whole, checkFiles]⟩

theorem Obstructs.checkFiles_eq {reason : Abort} (obstructs : Obstructs world path reason)
    (mode : Mode) (after : List Text) :
    checkFiles world mode (path :: after) = ⟨[], [], some reason⟩ := by
  simp [checkFiles, obstructs.checkFile_eq]

/-- The first file that ends the program takes the reports on the files before it with it. Of these
only the messages and the log remain. -/
theorem runCheck_of_obstructs {before : List Text} {reason : Abort}
    (free : ∀ path ∈ before, ∀ reason, ¬Obstructs world path reason)
    (obstructs : Obstructs world path reason) (after : List Text) (mode : Mode) (json : Bool) :
    ∃ accounts, List.Forall₂ Account.Concerns before accounts ∧
      runCheck world mode (before ++ path :: after) json =
        ⟨[], accounts.flatMap (Account.errors mode), .aborted reason⟩ := by
  obtain ⟨accounts, all, checked⟩ := exists_accounts free mode
  refine ⟨accounts, all, ?_⟩
  simp [runCheck, checked, obstructs.checkFiles_eq]

/-- Reports on files are among those to print, unless a file ends the program. -/
theorem Reports.mem_checkFiles {mode : Mode} {r : Report} (reports : Reports world mode path r)
    {files : List Text} (mem : path ∈ files)
    (finished : (checkFiles world mode files).abort = none) :
    r ∈ (checkFiles world mode files).reports.filterMap id := by
  obtain ⟨s, holds, reported⟩ := reports
  have own : ∃ log, checkFile world mode path = .ok (log, some r) := by
    rw [holds.checkFile_eq]
    simp [checkScript, reported]
  induction files with
  | nil => simp at mem
  | cons first rest ih =>
      cases checked : checkFile world mode first with
      | error reason => simp [checkFiles, checked] at finished
      | ok result =>
          simp only [checkFiles, checked] at finished ⊢
          rcases List.mem_cons.mp mem with rfl | mem
          · obtain ⟨log, known⟩ := own
            obtain rfl := Except.ok.inj (known.symm.trans checked)
            simp
          · have later := ih mem finished
            simp only [List.mem_filterMap, List.mem_cons] at later ⊢
            obtain ⟨found, listed, same⟩ := later
            exact ⟨found, .inr listed, same⟩

/-- A check accounts for every file, by exactly one report or exactly one message, if and only if no
file ends the program and all reports can be printed. Otherwise the first such file ends it without
any report. If there is none, the first report that cannot be printed does. Before that, nothing is
printed as a Json value, and in words what is reported on the files before. -/
theorem accounted_runCheck_iff (world : World) (mode : Mode) (files : List Text) (json : Bool) :
    (Accounted mode json files (runCheck world mode files json) ↔
        (∀ path ∈ files, ∀ reason, ¬Obstructs world path reason) ∧
          ∀ path ∈ files, ∀ r, Reports world mode path r → r.Printable world json) ∧
      ((∃ path ∈ files, ∃ reason, Obstructs world path reason) →
        ∃ before path after reason accounts, files = before ++ path :: after ∧
          (∀ path ∈ before, ∀ reason, ¬Obstructs world path reason) ∧
          Obstructs world path reason ∧ List.Forall₂ Account.Concerns before accounts ∧
          runCheck world mode files json =
            ⟨[], accounts.flatMap (Account.errors mode), .aborted reason⟩) ∧
      ((∀ path ∈ files, ∀ reason, ¬Obstructs world path reason) →
        (∃ path ∈ files, ∃ r, Reports world mode path r ∧ ¬r.Printable world json) →
        ∃ accounts before r after reason, List.Forall₂ Account.Concerns files accounts ∧
          accounts.filterMap Account.report? = before ++ r :: after ∧
          (∀ r' ∈ before, r'.Printable world json) ∧ ¬r.Printable world json ∧
          reason.FromPrinting ∧ runCheck world mode files json =
            ⟨if json then [] else shown mode false before, accounts.flatMap (Account.errors mode),
              .aborted reason⟩) := by
  rcases forall_or_exists_first (fun path => ∀ reason, ¬Obstructs world path reason) files with
    free | ⟨before, path, after, rfl, free, obstructed⟩
  · have finished := abort_checkFiles_eq_none free mode
    obtain ⟨accounts, all, errors, reports⟩ := exists_accounts_checkFiles free mode
    have obstructed : ¬∃ path ∈ files, ∃ reason, Obstructs world path reason := by
      rintro ⟨path, mem, reason, obstructs⟩
      exact free path mem reason obstructs
    rcases runCheck_cases world mode files json with ⟨reason, aborted, -⟩ |
      ⟨-, ⟨printable, outcome⟩ | ⟨before, r, after, reason, split, printable, hindered, refusal⟩⟩
    · cases finished.symm.trans aborted
    · have told : ∀ path ∈ files, ∀ r, Reports world mode path r → r.Printable world json :=
        fun path mem r reported => printable r (reported.mem_checkFiles mem finished)
      refine ⟨iff_of_true ⟨?_, accounts, all, ?_, ?_⟩ ⟨free, told⟩,
        fun obstructs => absurd obstructs obstructed, fun _ hindered => ?_⟩
      · rw [outcome, Status.finished.injEq, Status.finished.injEq]
        split_ifs <;> simp
      · rw [outcome, errors]
      · rw [outcome, reports]
      · obtain ⟨path, mem, r, reported, fails⟩ := hindered
        exact absurd (told path mem r reported) fails
    · obtain ⟨fromPrinting, outcome⟩ := refusal
      refine ⟨iff_of_false ?_ ?_, fun obstructs => absurd obstructs obstructed, fun _ _ => ?_⟩
      · rintro ⟨status, -⟩
        simp [outcome] at status
      · rintro ⟨-, told⟩
        obtain ⟨path, listed, reported⟩ := exists_reports_of_mem (split ▸ List.mem_append_cons_self)
        exact hindered (told path listed r reported)
      · refine ⟨accounts, before, r, after, reason, all, reports.symm.trans split, printable,
          hindered, fromPrinting, ?_⟩
        rw [outcome, errors]
  · obtain ⟨reason, obstructs⟩ : ∃ reason, Obstructs world path reason := by
      simpa using obstructed
    obtain ⟨accounts, all, outcome⟩ := runCheck_of_obstructs free obstructs after mode json
    have listed : path ∈ before ++ path :: after := by simp
    refine ⟨iff_of_false ?_ ?_, fun _ => ?_, fun none => absurd obstructs (none path listed reason)⟩
    · rintro ⟨status, -⟩
      simp [outcome] at status
    · rintro ⟨none, -⟩
      exact none path listed reason obstructs
    · exact ⟨before, path, after, reason, accounts, rfl, free, obstructs, all, outcome⟩

end

def identityFinding : @Finding (.uniform 4) (worldOf (.ok identityBytes)) :=
  let _ : Limits := .uniform 4
  { path := "identity.json"
    script := identityScript
    proof := ⟨identityScript.goal, .empty⟩
    holds := ⟨_, textAt_identityBytes_iff.mpr rfl, load_identityText⟩
    shallow := Script.Low.shallow (by decide)
    replayed := rfl }

def escapedBytes : List UInt8 := escapedText.points.map fun p => UInt8.ofNat p.code

/-- A byte that starts no character ends the program, and so does a null character in a path. The
report on the file before it is lost. A report with half of a pair in it cannot be printed where the
output takes no surrogates. -/
theorem strayByte_not_accounted :
    let _ : Limits := .uniform 4
    (runCheck (worldOf (.ok [0xFF])) ⟨.warning, false⟩ ["stray.json"] false).status =
        .aborted (.encoding ⟨.invalidStart, 0xFF, 0, 1⟩) ∧
      ¬Accounted ⟨.warning, false⟩ false ["stray.json"]
        (runCheck (worldOf (.ok [0xFF])) ⟨.warning, false⟩ ["stray.json"] false) ∧
      (runCheck (worldOf (.ok identityBytes)) ⟨.warning, false⟩ ["identity.json"] false).output ≠
        [] ∧
      (runCheck (worldOf (.ok identityBytes)) ⟨.warning, false⟩ ["identity.json", "\x00"]
        false).output = [] ∧
      (runCheck (worldOf (.ok escapedBytes)) ⟨.warning, false⟩ ["half.json"] false).status =
        .aborted (.unprintable ⟨leadingHalf, 0, 1⟩) := by
  intro limits
  have stray : runCheck (worldOf (.ok [0xFF])) ⟨.warning, false⟩ ["stray.json"] false =
      ⟨[], [], .aborted (.encoding ⟨.invalidStart, 0xFF, 0, 1⟩)⟩ := by
    decide +kernel
  have null : Obstructs (worldOf (.ok identityBytes)) "\x00" .nullInPath :=
    obstructs_of_pathFault? (by decide +kernel)
  refine ⟨by rw [stray], ?_, ?_, ?_, by decide +kernel⟩
  · rintro ⟨finished, -⟩
    simp [stray] at finished
  · have announceable : ∀ f ∈ [identityFinding], Announceable (worldOf (.ok identityBytes)) false
        f.path f.script := by
      rw [List.forall_mem_singleton]
      exact ⟨by decide, Text.writable_plain _, Text.writable_plain _⟩
    have paths : [identityFinding].map (fun f => f.path) = [.plain "identity.json"] := rfl
    rw [← paths, runCheck_findings announceable]
    simp [shown, identityFinding.lines_report]
  · have free : ∀ path ∈ [Text.plain "identity.json"], ∀ reason,
        ¬Obstructs (worldOf (.ok identityBytes)) path reason := by
      rw [List.forall_mem_singleton]
      exact fun reason => identityFinding.holds.not_obstructs
    obtain ⟨accounts, -, aborted⟩ := runCheck_of_obstructs free null [] ⟨.warning, false⟩ false
    rw [List.singleton_append] at aborted
    rw [aborted]

end Deduction.Command
