import Deduction.Proofs.Command.Output
import Deduction.Proofs.Exactness
import Deduction.Proofs.Script.Height

/-!
The verdict of the command that checks files.

A file counts as proved exactly if it holds a script that proves its goal. What is printed of the
files is then printed of closed proofs of these goals.
-/

namespace Deduction

universe u

/-! ### Reports -/

/-- The goal can be printed, and no formulas are compared that are nested too deeply. -/
structure Script.Shallow [Limits] (s : Script Label String) : Prop where
  goal : s.goal.exceeds Limits.rendering = false
  replay : s.written.stuckAfter? = none

theorem Script.Low.goal [Limits] {s : Script Label String} (low : s.Low) {limit : Nat}
    (listed : limit ∈ Limits.ofFormulas) : s.goal.exceeds limit = false := by
  have room := low limit listed s.goal List.mem_cons_self
  have fits : s.goal.height ≤ limit := by omega
  simpa [Formula.exceeds] using fits

theorem Script.Low.shallow [Limits] {s : Script Label String} (low : s.Low) : s.Shallow :=
  ⟨low.goal (by simp [Limits.ofFormulas]), low.stuckAfter?_written⟩

theorem Report.ofScript_of_replay [Limits] {s : Script Label String} {p : Proof Label String}
    (shallow : s.Shallow) (replayed : s.replay = .ok (.ok p)) (source : Option Text)
    (ascii : Bool) :
    Report.ofScript s source ascii =
      .ok ⟨s.name, source, s.goal.render (.select ascii), .ok p⟩ := by
  simp [Report.ofScript, shallow.goal, shallow.replay, replayed]

/-- A valid script is reported on with the verdict of its replay, unless something is nested too
deeply. -/
theorem Report.ofScript_cases [Limits] {s : Script Label String} (valid : s.validate = .ok ())
    (source : Option Text) (ascii : Bool) :
    Report.ofScript s source ascii = .error .tooDeep ∨
      s.Shallow ∧ ∃ verdict, s.replay = .ok verdict ∧
        Report.ofScript s source ascii =
          .ok ⟨s.name, source, s.goal.render (.select ascii), verdict⟩ := by
  obtain ⟨verdict, replayed⟩ := s.exists_verdict valid
  by_cases deep : s.goal.exceeds Limits.rendering = true
  · exact .inl (by simp [Report.ofScript, deep])
  · cases stuck : s.written.stuckAfter? with
    | some done => exact .inl (by simp [Report.ofScript, deep, replayed, stuck])
    | none =>
        have shallow : s.Shallow := ⟨by simpa using deep, stuck⟩
        cases verdict with
        | ok p =>
            have reported := ofScript_of_replay shallow replayed source ascii
            exact .inr ⟨shallow, _, replayed, reported⟩
        | error failure =>
            by_cases untold : failure.error.tooDeep = true
            · exact .inl (by simp [Report.ofScript, deep, replayed, stuck, untold])
            · refine .inr ⟨shallow, _, replayed, ?_⟩
              simp [Report.ofScript, deep, replayed, stuck, untold]

theorem Report.exists_verdict_of_ofScript [Limits] {s : Script Label String} {source : Option Text}
    {ascii : Bool} {r : Report} (valid : s.validate = .ok ())
    (reported : Report.ofScript s source ascii = .ok r) :
    ∃ verdict, s.replay = .ok verdict ∧
      r = ⟨s.name, source, s.goal.render (.select ascii), verdict⟩ := by
  rcases ofScript_cases valid source ascii with deep | ⟨-, verdict, replayed, known⟩
  · cases deep.symm.trans reported
  · exact ⟨verdict, replayed, Except.ok.inj (reported.symm.trans known)⟩

/-- The step at which a replay stops is one of the script. -/
theorem Script.exists_step_of_failure {s : Script Label String} {failure : Failure Label String}
    (replayed : s.replay = .ok (.error failure)) {id : Text} (stopped : failure.stepId? = some id) :
    ∃ step ∈ s.steps, step.id = id := by
  have listed {proofs bound : List (Text × Proof Label String)} {steps : List (Step Label String)}
      {step : Step Label String} (comes : ComesTo proofs steps step bound) : step ∈ steps := by
    induction comes with
    | here => exact List.mem_cons_self
    | later _ _ ih => exact List.mem_cons_of_mem _ ih
  unfold Script.replay at replayed
  split at replayed
  · cases replayed
  · split at replayed
    · cases replayed
    · rename_i step e stoppedAt
      cases replayed
      obtain ⟨bound, comes, -⟩ := Trace.comesTo_of_stopped stoppedAt
      exact ⟨step, listed comes, Option.some.inj stopped⟩
    · cases replayed
    · split at replayed
      · cases replayed
      · cases replayed
        cases stopped

namespace Command

/-! ### Files -/

variable {world : World} {mode : Mode} {path : Text}

def TextAt (world : World) (path : Text) (text : List Char) : Prop :=
  pathFault? path = none ∧
    ∃ bytes, world.read (normalPath path) = .ok bytes ∧ textOfBytes bytes = .ok text

/-- A file can be read, and its text is that of a script. -/
def Holds [Limits] (world : World) (path : Text) (s : Script Label String) : Prop :=
  ∃ text, TextAt world path text ∧ Script.load (String.ofList text) = .ok s

/-- What ends the program, instead of a message about the file: a path that the system does not
take, bytes that are no text, and what cannot be loaded for other reasons than its format. -/
inductive Obstructs [Limits] (world : World) (path : Text) : Abort → Prop
  | unwritablePath {e} : Text.Utf8.unwritable? standsForByte (normalPath path) = some e →
      Obstructs world path (.unwritablePath e)
  | nullInPath : (normalPath path).Writable standsForByte → .char '\x00' ∈ path.points →
      Obstructs world path .nullInPath
  | encoding {bytes e} : pathFault? path = none →
      world.read (normalPath path) = .ok bytes → textOfBytes bytes = .error e →
      Obstructs world path (.encoding e)
  | tooManyDigits {text digits} : TextAt world path text →
      Script.load (String.ofList text) = .error (.tooManyDigits digits) →
      Obstructs world path (.tooManyDigits digits)
  | tooDeep {text} : TextAt world path text →
      Script.load (String.ofList text) = .error .tooDeep → Obstructs world path .tooDeep

theorem Obstructs.checkFile_eq [Limits] {reason : Abort} (obstructs : Obstructs world path reason)
    (mode : Mode) : checkFile world mode path = .error reason := by
  cases obstructs with
  | unwritablePath refused => simp [checkFile, pathFault?, refused]
  | nullInPath taken null =>
      simp [checkFile, pathFault?, Text.Utf8.unwritable?_eq_none_iff.mpr taken, null]
  | encoding clean read decoded => simp [checkFile, clean, read, decoded]
  | tooManyDigits found loaded =>
      obtain ⟨clean, bytes, read, decoded⟩ := found
      simp [checkFile, checkText, clean, read, decoded, loaded]
  | tooDeep found loaded =>
      obtain ⟨clean, bytes, read, decoded⟩ := found
      simp [checkFile, checkText, clean, read, decoded, loaded]

theorem obstructs_of_pathFault? [Limits] {reason : Abort} (fault : pathFault? path = some reason) :
    Obstructs world path reason := by
  unfold pathFault? at fault
  split at fault
  · rename_i e refused
    cases fault
    exact .unwritablePath refused
  · rename_i taken
    split at fault
    · rename_i null
      cases fault
      exact .nullInPath (Text.Utf8.unwritable?_eq_none_iff.mp taken) (List.contains_iff_mem.mp null)
    · cases fault

theorem Holds.checkFile_eq [Limits] {s : Script Label String} (holds : Holds world path s)
    (mode : Mode) : checkFile world mode path = checkScript world.start mode path s := by
  obtain ⟨text, ⟨clean, bytes, read, decoded⟩, loaded⟩ := holds
  simp [checkFile, checkText, clean, read, decoded, loaded]

/-- A message that a file cannot be read, that it does not hold a script, or that the formulas of
its script go too deep. -/
inductive Complaint (path : Text) : Text → Prop
  | unreadable (reason : Text) : Complaint path (path ++ ": could not read file: " ++ reason)
  | malformed (reason : Text) : Complaint path (path ++ ": malformed script: " ++ reason)
  | tooDeep : Complaint path (path ++ ": malformed script: formula is nested too deeply")

/-- A file ends the program, gets a message and no report, or holds a script. -/
theorem checkFile_cases [Limits] (world : World) (path : Text) :
    (∃ reason, Obstructs world path reason) ∨
      (∃ message, Complaint path message ∧
        ∀ mode, checkFile world mode path = .ok ([message], none)) ∨
      ∃ s, Holds world path s := by
  cases clean : pathFault? path with
  | some reason => exact .inl ⟨reason, obstructs_of_pathFault? clean⟩
  | none =>
      cases read : world.read (normalPath path) with
      | error e =>
          refine .inr (.inl ⟨_, .unreadable (e.message (normalPath path)), ?_⟩)
          intro mode
          simp [checkFile, clean, read]
      | ok bytes =>
          cases decoded : textOfBytes bytes with
          | error e => exact .inl ⟨_, .encoding clean read decoded⟩
          | ok text =>
              have found : TextAt world path text := ⟨clean, bytes, read, decoded⟩
              cases loaded : Script.load (String.ofList text) with
              | ok s => exact .inr (.inr ⟨s, text, found, loaded⟩)
              | error e =>
                  cases e with
                  | tooManyDigits digits => exact .inl ⟨_, .tooManyDigits found loaded⟩
                  | tooDeep => exact .inl ⟨_, .tooDeep found loaded⟩
                  | format e =>
                      refine .inr (.inl ⟨_, .malformed e.message, ?_⟩)
                      intro mode
                      simp [checkFile, checkText, clean, read, decoded, loaded]

theorem Holds.valid [Limits] {s : Script Label String} (holds : Holds world path s) :
    s.validate = .ok () := by
  obtain ⟨text, -, loaded⟩ := holds
  exact (Script.portable_of_load loaded).valid

/-- What is reported on the script in a file. -/
def Reports [Limits] (world : World) (mode : Mode) (path : Text) (r : Report) : Prop :=
  ∃ s, Holds world path s ∧ Report.ofScript s (some path) mode.ascii = .ok r

theorem Reports.closed [Limits] {r : Report} (reports : Reports world mode path r) : r.Closed := by
  obtain ⟨s, holds, reported⟩ := reports
  obtain ⟨verdict, replayed, rfl⟩ := Report.exists_verdict_of_ofScript holds.valid reported
  intro p proved
  exact (Script.closed_of_replay (replayed.trans (congrArg _ proved))).1

theorem reports_of_checkFile [Limits] {log : List Text} {r : Report}
    (checked : checkFile world mode path = .ok (log, some r)) : Reports world mode path r := by
  rcases checkFile_cases world path with ⟨reason, obstructs⟩ | ⟨message, -, refused⟩ | ⟨s, holds⟩
  · cases (obstructs.checkFile_eq mode).symm.trans checked
  · cases (refused mode).symm.trans checked
  · rw [holds.checkFile_eq, checkScript] at checked
    split at checked
    · rename_i reported
      cases checked
      exact ⟨s, holds, reported⟩
    · cases checked
    · cases checked

theorem exists_reports_of_mem [Limits] {files : List Text} {r : Report}
    (mem : r ∈ (checkFiles world mode files).reports.filterMap id) :
    ∃ path ∈ files, Reports world mode path r := by
  induction files with
  | nil => simp [checkFiles] at mem
  | cons path rest ih =>
      cases checked : checkFile world mode path with
      | error reason => simp [checkFiles, checked] at mem
      | ok result =>
          obtain ⟨log, report⟩ := result
          simp only [checkFiles, checked, List.mem_filterMap, List.mem_cons] at mem
          obtain ⟨_, rfl | listed, same⟩ := mem
          · obtain rfl := same
            exact ⟨path, List.mem_cons_self, reports_of_checkFile checked⟩
          · obtain ⟨other, named, reports⟩ := ih (List.mem_filterMap.mpr ⟨_, listed, same⟩)
            exact ⟨other, List.mem_cons_of_mem _ named, reports⟩

/-! ### Findings -/

section

variable [Limits]

/-- A file whose script proves its goal. -/
structure Finding (world : World) where
  path : Text
  script : Script Label String
  proof : Proof Label String
  holds : Holds world path script
  shallow : script.Shallow
  replayed : script.replay = .ok (.ok proof)

def Finding.report (f : Finding world) (ascii : Bool) : Report :=
  ⟨f.script.name, some f.path, f.script.goal.render (.select ascii), .ok f.proof⟩

theorem Finding.exists_log (f : Finding world) (mode : Mode) :
    ∃ log, checkFile world mode f.path = .ok (log, some (f.report mode.ascii)) := by
  have reported := Report.ofScript_of_replay f.shallow f.replayed (some f.path) mode.ascii
  rw [f.holds.checkFile_eq]
  simp [checkScript, reported, Finding.report]

/-- A proof of the goal can be announced: the goal is not nested too deeply, and the output takes
the surrogates in the name and in the path. -/
structure Announceable (world : World) (json : Bool) (path : Text) (s : Script Label String) :
    Prop where
  low : s.goal.exceeds (if json then Limits.encoding else Limits.reporting) = false
  name : s.name.Writable world.prints
  path : path.Writable world.prints

theorem Finding.printable_report_iff (f : Finding world) {ascii json : Bool} :
    (f.report ascii).Printable world json ↔ Announceable world json f.path f.script := by
  have conclusion := (Script.closed_of_replay f.replayed).2
  have exceeds (limit : Nat) : (f.report ascii).exceeds limit = f.script.goal.exceeds limit := by
    simp [Report.exceeds, Finding.report, conclusion]
  have texts : (f.report ascii).texts = [f.script.name, f.path] := rfl
  constructor
  · rintro ⟨low, writable⟩
    rw [texts, List.forall_mem_cons, List.forall_mem_singleton] at writable
    exact ⟨exceeds _ ▸ low, writable.1, writable.2⟩
  · rintro ⟨low, name, path⟩
    exact ⟨(exceeds _).trans low, by simp [texts, name, path]⟩

/-- A file that holds a script does not end the program, and counts as proved only with a proof. -/
theorem Holds.exists_checked {s : Script Label String} (holds : Holds world path s) (mode : Mode) :
    ∃ checked, checkFile world mode path = .ok checked ∧
      (isProved checked.2 = true → ∃ f : Finding world, f.path = path) := by
  rw [holds.checkFile_eq]
  rcases Report.ofScript_cases holds.valid (some path) mode.ascii with
    reported | ⟨shallow, verdict, replayed, reported⟩
  · simp only [checkScript, reported]
    exact ⟨_, rfl, nofun⟩
  · simp only [checkScript, reported]
    refine ⟨_, rfl, ?_⟩
    intro proved
    cases verdict with
    | ok p => exact ⟨⟨path, s, p, holds, shallow, replayed⟩, rfl⟩
    | error failure => simp [isProved, Report.isSuccess] at proved

theorem exists_finding {checked : List Text × Option Report}
    (known : checkFile world mode path = .ok checked) (proved : isProved checked.2 = true) :
    ∃ f : Finding world, f.path = path := by
  rcases checkFile_cases world path with ⟨reason, obstructs⟩ | ⟨message, -, refused⟩ | ⟨s, holds⟩
  · cases (obstructs.checkFile_eq mode).symm.trans known
  · cases (refused mode).symm.trans known
    simp [isProved] at proved
  · obtain ⟨checked, same, finding⟩ := holds.exists_checked mode
    cases same.symm.trans known
    exact finding proved

theorem checkFile_eq_error_iff {reason : Abort} :
    checkFile world mode path = .error reason ↔ Obstructs world path reason := by
  constructor
  · intro known
    rcases checkFile_cases world path with ⟨other, obstructs⟩ | ⟨message, -, refused⟩ | ⟨s, holds⟩
    · cases (obstructs.checkFile_eq mode).symm.trans known
      exact obstructs
    · cases (refused mode).symm.trans known
    · obtain ⟨checked, same, -⟩ := holds.exists_checked mode
      cases same.symm.trans known
  · intro obstructs
    exact obstructs.checkFile_eq mode

theorem exists_findings_iff {files : List Text} {json : Bool} :
    (∃ findings : List (Finding world), findings.map (·.path) = files ∧
        ∀ f ∈ findings, Announceable world json f.path f.script) ↔
      ∀ path ∈ files, ∃ s, Holds world path s ∧ s.Shallow ∧ Announceable world json path s ∧
        ∃ p, s.replay = .ok (.ok p) := by
  constructor
  · rintro ⟨findings, rfl, announceable⟩ path mem
    obtain ⟨f, listed, rfl⟩ := List.mem_map.mp mem
    exact ⟨f.script, f.holds, f.shallow, announceable f listed, f.proof, f.replayed⟩
  · intro all
    induction files with
    | nil => exact ⟨[], rfl, by simp⟩
    | cons path rest ih =>
        obtain ⟨⟨s, holds, shallow, announceable, p, replayed⟩, others⟩ :=
          List.forall_mem_cons.mp all
        obtain ⟨findings, rfl, later⟩ := ih others
        exact ⟨⟨path, s, p, holds, shallow, replayed⟩ :: findings, rfl,
          List.forall_mem_cons.mpr ⟨announceable, later⟩⟩

/-! ### Runs -/

theorem checkFiles_findings (findings : List (Finding world)) (mode : Mode) :
    (checkFiles world mode (findings.map (·.path))).abort = none ∧
      (checkFiles world mode (findings.map (·.path))).reports =
        findings.map fun f => some (f.report mode.ascii) := by
  induction findings with
  | nil => exact ⟨rfl, rfl⟩
  | cons f rest ih =>
      obtain ⟨log, checked⟩ := f.exists_log mode
      simp [checkFiles, checked, ih]

theorem filterMap_reports_findings (findings : List (Finding world)) (mode : Mode) :
    (checkFiles world mode (findings.map (·.path))).reports.filterMap id =
      findings.map fun f => f.report mode.ascii := by
  rw [(checkFiles_findings findings mode).2, List.filterMap_map]
  exact List.filterMap_eq_map_iff_forall_eq_some.mpr fun _ _ => rfl

theorem exists_findings {files : List Text}
    (finished : (checkFiles world mode files).abort = none)
    (proved : (checkFiles world mode files).reports.all isProved = true) :
    ∃ findings : List (Finding world), findings.map (·.path) = files := by
  induction files with
  | nil => exact ⟨[], rfl⟩
  | cons path rest ih =>
      cases checked : checkFile world mode path with
      | error reason => simp [checkFiles, checked] at finished
      | ok result =>
          simp only [checkFiles, checked, List.all_cons, Bool.and_eq_true] at finished proved
          obtain ⟨f, rfl⟩ := exists_finding checked proved.1
          obtain ⟨findings, rfl⟩ := ih finished proved.2
          exact ⟨f :: findings, rfl⟩

theorem abort_checkFiles (mode other : Mode) (files : List Text) :
    (checkFiles world mode files).abort = (checkFiles world other files).abort := by
  induction files with
  | nil => rfl
  | cons path rest ih =>
      rcases checkFile_cases world path with
        ⟨reason, obstructs⟩ | ⟨message, -, refused⟩ | ⟨s, holds⟩
      · simp [checkFiles, obstructs.checkFile_eq]
      · simp [checkFiles, refused, ih]
      · obtain ⟨_, ours, -⟩ := holds.exists_checked mode
        obtain ⟨_, theirs, -⟩ := holds.exists_checked other
        simp [checkFiles, ours, theirs, ih]

theorem abort_checkFiles_eq_none {files : List Text}
    (free : ∀ path ∈ files, ∀ reason, ¬Obstructs world path reason) (mode : Mode) :
    (checkFiles world mode files).abort = none := by
  induction files with
  | nil => rfl
  | cons path rest ih =>
      obtain ⟨first, others⟩ := List.forall_mem_cons.mp free
      cases checked : checkFile world mode path with
      | error reason => exact absurd (checkFile_eq_error_iff.mp checked) (first reason)
      | ok result => simpa [checkFiles, checked] using ih others

/-- A file ends the program, or all reports are printed, or the first one ends it that cannot be. -/
theorem runCheck_cases (world : World) (mode : Mode) (files : List Text) (json : Bool) :
    let checked := checkFiles world mode files
    let reports := checked.reports.filterMap id
    (∃ reason, checked.abort = some reason ∧
        runCheck world mode files json = ⟨[], checked.errors, .aborted reason⟩) ∨
      checked.abort = none ∧
        ((∀ r ∈ reports, r.Printable world json) ∧ runCheck world mode files json =
            ⟨shown mode json reports, checked.errors,
              .finished (if checked.reports.all isProved then 0 else 1)⟩ ∨
          ∃ before r after reason, reports = before ++ r :: after ∧
            (∀ r' ∈ before, r'.Printable world json) ∧ ¬r.Printable world json ∧
            reason.FromPrinting ∧ runCheck world mode files json =
              ⟨if json then [] else shown mode false before, checked.errors, .aborted reason⟩) := by
  intro checked reports
  have closed : ∀ r ∈ reports, r.Closed := by
    intro r mem
    obtain ⟨path, -, reported⟩ := exists_reports_of_mem mem
    exact reported.closed
  cases aborted : checked.abort with
  | some reason =>
      refine .inl ⟨reason, rfl, ?_⟩
      simp only [checked] at aborted
      simp only [runCheck, aborted, checked]
  | none =>
      refine .inr ⟨rfl, ?_⟩
      rcases forall_or_exists_first (Report.Printable world json) reports with
        printable | ⟨before, r, after, split, printable, hindered⟩
      · have told := printAll_of_printable closed printable mode
        refine .inl ⟨printable, ?_⟩
        simp only [checked, reports] at aborted told
        simp only [runCheck, aborted, told, checked, reports]
      · rw [split] at closed
        obtain ⟨reason, fromPrinting, told⟩ :=
          exists_printAll_of_not closed printable hindered mode
        rw [← split] at told
        refine .inr ⟨before, r, after, reason, split, printable, hindered, fromPrinting, ?_⟩
        simp only [checked, reports] at aborted told
        simp only [runCheck, aborted, told, checked]

/-- Proofs that can be announced are announced. -/
theorem runCheck_findings {findings : List (Finding world)} {json : Bool}
    (announceable : ∀ f ∈ findings, Announceable world json f.path f.script) :
    runCheck world mode (findings.map (·.path)) json =
      ⟨shown mode json (findings.map fun f => f.report mode.ascii),
        (checkFiles world mode (findings.map (·.path))).errors, .finished 0⟩ := by
  obtain ⟨finished, reports⟩ := checkFiles_findings findings mode
  have printable : ∀ r ∈ findings.map fun f => f.report mode.ascii, r.Printable world json := by
    intro r mem
    obtain ⟨f, listed, rfl⟩ := List.mem_map.mp mem
    exact f.printable_report_iff.mpr (announceable f listed)
  have proved : (checkFiles world mode (findings.map (·.path))).reports.all isProved = true := by
    simp [reports, isProved, Report.isSuccess, Finding.report]
  rcases runCheck_cases world mode (findings.map (·.path)) json with
    ⟨reason, aborted, -⟩ | ⟨-, ⟨-, outcome⟩ | ⟨before, r, after, _, split, -, hindered, -⟩⟩
  · cases finished.symm.trans aborted
  · rw [outcome, filterMap_reports_findings, proved]
    rfl
  · rw [filterMap_reports_findings] at split
    exact absurd (printable r (by simp [split])) hindered

theorem status_eq_finished_zero_iff {files : List Text} {json : Bool} :
    (runCheck world mode files json).status = .finished 0 ↔
      ∃ findings : List (Finding world), findings.map (·.path) = files ∧
        ∀ f ∈ findings, Announceable world json f.path f.script := by
  constructor
  · intro status
    rcases runCheck_cases world mode files json with
      ⟨reason, -, outcome⟩ | ⟨finished, ⟨printable, outcome⟩ | ⟨_, _, _, _, _, _, _, _, outcome⟩⟩
    · simp [outcome] at status
    · have proved : (checkFiles world mode files).reports.all isProved = true := by
        simpa [outcome] using status
      obtain ⟨findings, rfl⟩ := exists_findings finished proved
      refine ⟨findings, rfl, fun f listed => ?_⟩
      rw [filterMap_reports_findings] at printable
      exact f.printable_report_iff.mp (printable _ (List.mem_map_of_mem listed))
    · simp [outcome] at status
  · rintro ⟨findings, rfl, announceable⟩
    rw [runCheck_findings announceable]

/-- Nothing hinders printing whatever is reported on a file. -/
def Presentable (world : World) (path : Text) : Prop :=
  path.Writable world.prints ∧ ∀ s, Holds world path s →
    s.Low ∧ s.name.Writable world.prints ∧ ∀ step ∈ s.steps, step.id.Writable world.prints

theorem Presentable.printable (presentable : Presentable world path) {r : Report}
    (reports : Reports world mode path r) (json : Bool) : r.Printable world json := by
  obtain ⟨writable, scripts⟩ := presentable
  obtain ⟨s, holds, reported⟩ := reports
  obtain ⟨low, name, ids⟩ := scripts s holds
  obtain ⟨verdict, replayed, rfl⟩ := Report.exists_verdict_of_ofScript holds.valid reported
  cases verdict with
  | ok p =>
      have conclusion := (Script.closed_of_replay replayed).2
      refine ⟨?_, by simp [Report.texts, Report.stepId?, name, writable]⟩
      simp only [Report.exceeds, conclusion]
      exact low.goal (by cases json <;> simp [Limits.ofFormulas])
  | error failure =>
      refine ⟨rfl, ?_⟩
      simp only [Report.texts, Report.stepId?, List.forall_mem_cons, List.forall_mem_append]
      refine ⟨name, by simpa using writable, fun id stopped => ?_⟩
      obtain ⟨step, listed, rfl⟩ :=
        Script.exists_step_of_failure replayed (Option.mem_toList.mp stopped)
      exact ids step listed

theorem Presentable.announceable (presentable : Presentable world path) {s : Script Label String}
    (holds : Holds world path s) (json : Bool) : Announceable world json path s := by
  obtain ⟨low, name, -⟩ := presentable.2 s holds
  exact ⟨low.goal (by cases json <;> simp [Limits.ofFormulas]), name, presentable.1⟩

/-- Where nothing hinders printing, only a file can end the program. -/
theorem status_of_presentable {files : List Text}
    (presentable : ∀ path ∈ files, Presentable world path) (mode : Mode) (json : Bool) :
    (∃ reason, (checkFiles world mode files).abort = some reason ∧
        (runCheck world mode files json).status = .aborted reason) ∨
      (checkFiles world mode files).abort = none ∧
        ((runCheck world mode files json).status = .finished 0 ∨
          (runCheck world mode files json).status = .finished 1) := by
  rcases runCheck_cases world mode files json with
    ⟨reason, aborted, outcome⟩ | ⟨finished, ⟨-, outcome⟩ | ⟨_, r, _, _, split, -, hindered, -⟩⟩
  · exact .inl ⟨reason, aborted, by rw [outcome]⟩
  · refine .inr ⟨finished, ?_⟩
    rw [outcome, Status.finished.injEq, Status.finished.injEq]
    split_ifs <;> simp
  · obtain ⟨path, listed, reports⟩ := exists_reports_of_mem (split ▸ List.mem_append_cons_self)
    exact absurd ((presentable path listed).printable reports json) hindered

theorem status_eq_finished_zero_iff_of_presentable {files : List Text} {json : Bool}
    (presentable : ∀ path ∈ files, Presentable world path) :
    (runCheck world mode files json).status = .finished 0 ↔
      ∀ path ∈ files, ∃ s, Holds world path s ∧ ∃ p, s.replay = .ok (.ok p) := by
  rw [status_eq_finished_zero_iff, exists_findings_iff]
  refine forall₂_congr fun path mem => exists_congr fun s => and_congr_right fun holds => ?_
  have told := presentable path mem
  rw [and_iff_right (told.2 s holds).1.shallow, and_iff_right (told.announceable holds json)]

/-- The status depends on neither the symbols nor the form of the output. -/
theorem status_runCheck {files : List Text} (presentable : ∀ path ∈ files, Presentable world path)
    (mode other : Mode) (json lines : Bool) :
    (runCheck world mode files json).status = (runCheck world other files lines).status := by
  have zero : (runCheck world mode files json).status = .finished 0 ↔
      (runCheck world other files lines).status = .finished 0 := by
    rw [status_eq_finished_zero_iff_of_presentable presentable,
      status_eq_finished_zero_iff_of_presentable presentable]
  have same := @abort_checkFiles world _ mode other files
  rcases status_of_presentable presentable mode json with
    ⟨reason, aborted, status⟩ | ⟨finished, status⟩
  all_goals rcases status_of_presentable presentable other lines with
    ⟨reason', aborted', status'⟩ | ⟨finished', status'⟩
  · simp_all
  · simp_all
  · simp_all
  · rcases status with status | status <;> rcases status' with status' | status' <;> simp_all

/-! ### Output -/

namespace Finding

theorem lines_report (f : Finding world) (ascii : Bool) :
    (f.report ascii).lines ascii =
      [(f.report ascii).heading, .plain ("  ✓ Proved: " ++
        ((Symbols.select ascii).turnstile ++ " " ++ f.script.goal.render (.select ascii)))] := by
  obtain ⟨closed, conclusion⟩ := Script.closed_of_replay f.replayed
  have sequent := Proof.render_sequent_of_closed closed (.select ascii)
  rw [conclusion] at sequent
  simp only [Report.lines, Finding.report, sequent]
  rfl

theorem isIdentifier (f : Finding world) :
    ∀ name ∈ f.script.goal.occurrences, Formula.isIdentifier name = true := by
  obtain ⟨text, -, loaded⟩ := f.holds
  intro name occurs
  have named := (Script.portable_of_load loaded).named f.script.goal List.mem_cons_self
  exact Formula.isIdentifier_iff.mpr (named name occurs)

theorem parseAny_goal (f : Finding world) (ascii : Bool) :
    Formula.parseAny (f.script.goal.render (.select ascii)) = .ok f.script.goal :=
  Formula.parseAny_render (Formula.legible_select ascii) f.isIdentifier

theorem forces_goal (f : Finding world) (K : Kripke.{u} String) (w : K.World) :
    K.Forces w f.script.goal := by
  have derivable := f.script.derivable_of_replay f.replayed
  exact derivable.forces K nofun

/-- Two lines: the name and the place of the script, and a sequent without hypotheses whose formula
is read as the goal. -/
def Shown (f : Finding world) (ascii : Bool) (lines : List Text) : Prop :=
  ∃ text, Formula.parseAny text = .ok f.script.goal ∧
    lines = [if f.path.isEmpty then f.script.name else f.script.name ++ " (" ++ f.path ++ ")",
      .plain ("  ✓ Proved: " ++ ((Symbols.select ascii).turnstile ++ " " ++ text))]

/-- An object that tells of success, with the goal as the conclusion. -/
def Told (f : Finding world) (item : Json) : Prop :=
  ∃ fields conclusion, item = .obj fields ∧
    Ordered.find? (.plain "script") fields = some (.str f.script.name) ∧
    Ordered.find? (.plain "source") fields = some (.str f.path) ∧
    Ordered.find? (.plain "success") fields = some (.bool true) ∧
    Ordered.find? (.plain "conclusion") fields = some conclusion ∧
    ∀ room, f.script.goal.height < room →
      Formula.ofJsonWithin room conclusion = .ok f.script.goal

theorem shown_lines (f : Finding world) (ascii : Bool) :
    f.Shown ascii ((f.report ascii).lines ascii) :=
  ⟨_, f.parseAny_goal ascii, f.lines_report ascii⟩

theorem told_toJson (f : Finding world) (ascii : Bool) : f.Told (f.report ascii).toJson := by
  have conclusion := (Script.closed_of_replay f.replayed).2
  refine ⟨_, f.proof.conclusion.toJson, rfl, rfl, rfl, rfl, rfl, fun room low => ?_⟩
  rw [conclusion]
  exact (Formula.encoded_toJson f.isIdentifier).ofJsonWithin low

end Finding

end

/-- A world in which every path leads to the same file, and whose output takes no surrogate. -/
def worldOf (contents : Except FileError (List UInt8)) : World where
  start := .called
  environment := .ok []
  warnings := []
  read _ := contents
  prints _ := false

def identityText : List Char :=
  (Json.indented 0 identityScript.toJson).map fun p => Char.ofNat p.code

def identityBytes : List UInt8 := identityText.map fun c => UInt8.ofNat c.toNat

theorem load_identityText :
    @Script.load (.uniform 4) (String.ofList identityText) = .ok identityScript := by
  let _ : Limits := .uniform 4
  have portable : identityScript.Portable := ⟨rfl, by decide, by decide⟩
  have compact : identityScript.Compact := ⟨Nat.le_refl 4, by decide⟩
  have written : .plain (String.ofList identityText) = identityScript.dump := by
    rw [← Text.points_inj, Text.points_plain, String.toList_ofList, Script.dump, Json.pretty,
      Text.points_ofPoints]
    decide +kernel
  rw [written]
  exact portable.load_dump compact

theorem textAt_identityBytes_iff {text : List Char} :
    TextAt (worldOf (.ok identityBytes)) "identity.json" text ↔ text = identityText := by
  have decoded : textOfBytes identityBytes = .ok identityText := by decide +kernel
  have clean : pathFault? "identity.json" = none := by decide +kernel
  simp [TextAt, worldOf, clean, decoded, eq_comm]

end Command

end Deduction
