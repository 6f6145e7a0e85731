import InfoFlow.CommandLine
import InfoFlow.Proofs.Replay.LegalPart

/-!
# The exit status of a replay

The replay command ends with status 0 or 1. It is 0 exactly when the file holds a trace
over the levels in force and every step of this trace succeeds (`Chain.ReplaysCleanly`),
which mentions neither an option nor how the report is printed. Going on after illegal
flows can turn a report into a fault further on in the trace, but never into a clean
report, and so leaves the status as it is (`status_replay`). The output is what tells
the two apart: a report is printed, a fault leaves the output empty.
-/

namespace InfoFlow

/-! ## §1  Clean replays -/

section Clean

variable (L : Type) [Level L] [JsonLevel L]

/-- The text writes a trace over these levels, every step of which succeeds. -/
def TextReplaysCleanly (policy : Policy) (text : String) : Prop :=
  ∃ trace : Trace L, Trace.read? text = some trace ∧
    (Replay.new policy false).Clean 0 trace.steps

variable {L} {policy : Policy} {text : String} {trace : Trace L}

omit [JsonLevel L] in
/-- Steps that all succeed do so whether or not the replay goes on after illegal flows. -/
theorem Replay.clean_withKeepGoing {r : Replay L} {index : Nat} {steps : List (Step L)}
    (h : r.Clean index steps) (keepGoing : Bool) : (r.withKeepGoing keepGoing).Clean index steps :=
  (h.doesAll.withKeepGoing keepGoing).clean index

omit [JsonLevel L] in
theorem Replay.clean_new_iff (keepGoing : Bool) :
    (Replay.new policy keepGoing).Clean 0 trace.steps ↔
      (Replay.new policy false).Clean 0 trace.steps := by
  constructor
  · exact fun h => Replay.clean_withKeepGoing h false
  · exact fun h => Replay.clean_withKeepGoing h keepGoing

theorem textReplaysCleanly_iff (keepGoing : Bool) :
    TextReplaysCleanly L policy text ↔
      ∃ report, replayText L text policy keepGoing = .ok report ∧ report.isClean = true := by
  unfold TextReplaysCleanly replayText
  cases (Trace.read? text : Option (Trace L)) with
  | none => simp
  | some trace =>
      have hrun : (Replay.new policy keepGoing).Clean 0 trace.steps ↔
          ∃ report, ((Replay.new policy keepGoing).run trace).result = .ok report ∧
            report.isClean = true :=
        Replay.clean_iff_run (r := Replay.new policy keepGoing)
      rw [Replay.clean_new_iff] at hrun
      simp only [Option.some.injEq, exists_eq_left', Outcome.mapError_eq_ok]
      exact hrun

end Clean

/-- The text writes a trace over the levels of a chain, every step of which succeeds. -/
def Chain.ReplaysCleanly (chain : Chain) (policy : Policy) (text : String) : Prop :=
  match chain with
  | .two => TextReplaysCleanly TwoLevel policy text
  | .three => TextReplaysCleanly ThreeLevel policy text

theorem Chain.replaysCleanly_iff {chain : Chain} {policy : Policy} {text : String}
    (keepGoing : Bool) :
    chain.ReplaysCleanly policy text ↔
      ∃ report : Report, (match chain with
        | .two => replayText TwoLevel text policy keepGoing
        | .three => replayText ThreeLevel text policy keepGoing) = .ok report ∧
        report.isClean = true := by
  cases chain with
  | two => exact textReplaysCleanly_iff keepGoing
  | three => exact textReplaysCleanly_iff keepGoing

/-- The file holds a trace that replays cleanly over the levels in force. -/
def Source.ReplaysCleanly (trace : Source) (options : ReplayOptions) (settings : Settings) : Prop :=
  ∃ text, trace.content = some text ∧
    (options.lattice.getD settings.lattice).ReplaysCleanly settings.monitor text

/-- **A file is replayed to a clean report exactly when it replays cleanly**, whatever
is to happen after illegal flows. -/
theorem Source.replaysCleanly_iff {trace : Source} {options : ReplayOptions} {settings : Settings} :
    trace.ReplaysCleanly options settings ↔
      ∃ report, replayFile trace options settings = .ok report ∧ report.isClean = true := by
  unfold Source.ReplaysCleanly replayFile
  cases trace.content with
  | none => simp
  | some text =>
      simp only [Option.some.injEq, exists_eq_left', Outcome.mapError_eq_ok]
      exact Chain.replaysCleanly_iff (options.keepGoing || settings.keepGoing)

/-! ## §2  What is printed -/

/-- A report is never printed as nothing. -/
theorem Report.render_ne_empty (report : Report) (json : Bool) : report.render json ≠ "" := by
  have hleft : ∀ {a b : String}, a ≠ "" → a ++ b ≠ "" :=
    fun ha h => ha (String.append_eq_empty_iff.1 h).1
  have hright : ∀ {a b : String}, b ≠ "" → a ++ b ≠ "" :=
    fun hb h => hb (String.append_eq_empty_iff.1 h).2
  cases json with
  | true => exact hright (by decide)
  | false => exact hleft (hleft (hleft (by decide)))

/-! ## §3  The command -/

variable {read : String → Option String} {environment : Option String} {arguments : List String}
  {config : Option String} {path : String} {options : ReplayOptions} {settings : Settings}

/-- The file at a path, as the program finds it. -/
def sourceAt (read : String → Option String) (path : String) : Source := ⟨path, read path⟩

/-- The settings in force: those of the file that the command line names, else those of
the file that the environment names, else the defaults. -/
def settingsInForce (read : String → Option String) (config environment : Option String) :
    Except ToolFault Settings :=
  Settings.resolve (config.map (sourceAt read)) (environment.map (sourceAt read))

/-- A replay that comes to a report ends with it. -/
theorem runCommandLine_of_report {report : Report}
    (hrequest : Request.ofArguments? arguments = some (.replay config path options))
    (hsettings : settingsInForce read config environment = .ok settings)
    (hreport : replayFile (sourceAt read path) options settings = .ok report) :
    runCommandLine read environment arguments = report.ending options.json := by
  unfold settingsInForce sourceAt at hsettings
  unfold sourceAt at hreport
  simp only [runCommandLine, hrequest, Request.answer, Request.config?, hsettings, hreport]

/-- A replay that comes to no report ends with the fault. -/
theorem runCommandLine_of_fault {e : ToolFault}
    (hrequest : Request.ofArguments? arguments = some (.replay config path options))
    (hsettings : settingsInForce read config environment = .ok settings)
    (hfault : replayFile (sourceAt read path) options settings = .error e) :
    runCommandLine read environment arguments = .failure e := by
  unfold settingsInForce sourceAt at hsettings
  unfold sourceAt at hfault
  simp only [runCommandLine, hrequest, Request.answer, Request.config?, hsettings, hfault]

/-- **The status is 0 for a clean replay and 1 for any other.** -/
theorem status_cases
    (hrequest : Request.ofArguments? arguments = some (.replay config path options))
    (hsettings : settingsInForce read config environment = .ok settings) :
    (sourceAt read path).ReplaysCleanly options settings ∧
        (runCommandLine read environment arguments).status = 0 ∨
      ¬(sourceAt read path).ReplaysCleanly options settings ∧
        (runCommandLine read environment arguments).status = 1 := by
  rw [Source.replaysCleanly_iff]
  cases hfile : replayFile (sourceAt read path) options settings with
  | error e =>
      rw [runCommandLine_of_fault hrequest hsettings hfile]
      refine Or.inr ⟨?_, rfl⟩
      rintro ⟨report, hreport, -⟩
      cases hreport
  | ok report =>
      rw [runCommandLine_of_report hrequest hsettings hfile]
      cases hclean : report.isClean with
      | true => exact Or.inl ⟨⟨report, rfl, hclean⟩, if_pos hclean⟩
      | false =>
          refine Or.inr ⟨?_, if_neg (by rw [hclean]; exact Bool.false_ne_true)⟩
          rintro ⟨report', hreport', hclean'⟩
          cases hreport'
          rw [hclean] at hclean'
          cases hclean'

/-- **The exit status of a replay.** Let a command line be read as a request to replay a
trace, and let its settings be in force. The status is 0 exactly when the file holds a
trace over the levels in force that replays cleanly, and 1 otherwise. The output is the
report as it is to be rendered when the replay comes to one, which is never empty, and
empty when it comes to none. Any other request for a replay has the same status if it
finds the same in the trace file and puts the same levels and the same policy of the
monitor in force, whatever becomes of illegal flows and however reports are printed. -/
theorem status_replay
    (hrequest : Request.ofArguments? arguments = some (.replay config path options))
    (hsettings : settingsInForce read config environment = .ok settings) :
    let trace := sourceAt read path
    let ending := runCommandLine read environment arguments
    (ending.status = 0 ↔ trace.ReplaysCleanly options settings) ∧
    (ending.status = 1 ↔ ¬trace.ReplaysCleanly options settings) ∧
    (∀ report, replayFile trace options settings = .ok report →
      ending.output = report.render options.json ∧ ending.output ≠ "") ∧
    (∀ e, replayFile trace options settings = .error e → ending.output = "") ∧
    ∀ read' environment' arguments' config' path' options' settings',
      Request.ofArguments? arguments' = some (.replay config' path' options') →
      settingsInForce read' config' environment' = .ok settings' →
      read' path' = read path →
      options'.lattice.getD settings'.lattice = options.lattice.getD settings.lattice →
      settings'.monitor = settings.monitor →
      (runCommandLine read' environment' arguments').status = ending.status := by
  intro trace ending
  have hstatus := status_cases hrequest hsettings
  refine ⟨?_, ?_, ?_, ?_, ?_⟩
  · rcases hstatus with ⟨hclean, hzero⟩ | ⟨hnot, hone⟩
    · exact iff_of_true hzero hclean
    · refine iff_of_false ?_ hnot
      rw [hone]
      exact Nat.one_ne_zero
  · rcases hstatus with ⟨hclean, hzero⟩ | ⟨hnot, hone⟩
    · refine iff_of_false ?_ (not_not_intro hclean)
      rw [hzero]
      exact Nat.zero_ne_one
    · exact iff_of_true hone hnot
  · intro report hreport
    have hending : ending = report.ending options.json :=
      runCommandLine_of_report hrequest hsettings hreport
    rw [hending]
    exact ⟨rfl, report.render_ne_empty options.json⟩
  · intro e hfault
    have hending : ending = .failure e := runCommandLine_of_fault hrequest hsettings hfault
    rw [hending]
    rfl
  · intro read' environment' arguments' config' path' options' settings' hrequest' hsettings'
      hsame hlattice hmonitor
    -- what decides the status is the text, the levels and the policy
    have hclean : (sourceAt read' path').ReplaysCleanly options' settings' ↔
        trace.ReplaysCleanly options settings := by
      unfold Source.ReplaysCleanly
      rw [hlattice, hmonitor]
      show (∃ text, read' path' = some text ∧ _) ↔ ∃ text, read path = some text ∧ _
      rw [hsame]
    rcases hstatus with ⟨htrue, hzero⟩ | ⟨hfalse, hone⟩
    · rcases status_cases hrequest' hsettings' with ⟨-, hzero'⟩ | ⟨hnot, -⟩
      · exact hzero'.trans hzero.symm
      · exact absurd (hclean.2 htrue) hnot
    · rcases status_cases hrequest' hsettings' with ⟨htrue, -⟩ | ⟨-, hone'⟩
      · exact absurd (hclean.1 htrue) hfalse
      · exact hone'.trans hone.symm

section Witness

/-- A secret is kept from a public sink; then a local is assigned that was never
declared. -/
def leakThenAbort : Trace TwoLevel where
  description := ""
  steps :=
    [⟨"main", .action (.declare "x")⟩, ⟨"main", .action (.label "x" .high)⟩,
      ⟨"main", .action (.checkSink "x" .low)⟩, ⟨"main", .action (.write "z" [])⟩]

def leakThenAbortText : String :=
  "\x7b\"steps\": [[\"main\", [\"declare_local\", \"x\"]], " ++
    "[\"main\", [\"assert_local_level\", \"x\", \"HIGH\"]], " ++
    "[\"main\", [\"check_flows_to\", \"x\", \"LOW\"]], " ++
    "[\"main\", [\"write_local\", \"z\", []]]]\x7d"

/-- Whatever file is read, it holds this trace. -/
def readLeakThenAbort (_ : String) : Option String := some leakThenAbortText

/-- Stopped at the illegal flow, the replay comes to a report; going on after it, to a
fault. The status is the same. -/
theorem status_replay_leakThenAbort :
    (runCommandLine readLeakThenAbort none ["replay", "trace"]).status = 1 ∧
      (runCommandLine readLeakThenAbort none ["replay", "trace"]).output ≠ "" ∧
      (runCommandLine readLeakThenAbort none ["replay", "--json", "-k", "trace"]).status = 1 ∧
      (runCommandLine readLeakThenAbort none ["replay", "--json", "-k", "trace"]).output = "" := by
  have hread : Trace.read? leakThenAbortText = some leakThenAbort := by decide +kernel
  have hstops : replayFile (sourceAt readLeakThenAbort "trace") {} {} =
      .ok ⟨3, [⟨2, "main", "Illegal flow to local 'x': level HIGH exceeds sink bound LOW"⟩]⟩ := by
    have hrun : ((Replay.new {} false).run leakThenAbort).result = .ok
        ⟨3, [⟨2, "main", "Illegal flow to local 'x': level HIGH exceeds sink bound LOW"⟩]⟩ := by rfl
    simp only [replayFile, sourceAt, readLeakThenAbort, replayText, hread, hrun, Option.getD_none,
      Bool.or_self]
    rfl
  have hgoes : replayFile (sourceAt readLeakThenAbort "trace") { keepGoing := true, json := true }
      {} = .error (.replayFailed "trace"
        (.aborted (.fault 3 "main" (.unregistered (.local "z"))))) := by
    have hrun : ((Replay.new {} true).run leakThenAbort).result =
        .error (.fault 3 "main" (.unregistered (.local "z"))) := by rfl
    simp only [replayFile, sourceAt, readLeakThenAbort, replayText, hread, hrun, Option.getD_none,
      Bool.or_false]
    rfl
  have hplain : Request.ofArguments? ["replay", "trace"] = some (.replay none "trace" {}) := by
    decide +kernel
  have hflags : Request.ofArguments? ["replay", "--json", "-k", "trace"] =
      some (.replay none "trace" { keepGoing := true, json := true }) := by
    decide +kernel
  have hsettings : settingsInForce readLeakThenAbort none none = .ok {} := by rfl
  obtain ⟨-, hone, hreports, -, hsame⟩ := status_replay hplain hsettings
  obtain ⟨-, -, -, haborts, -⟩ := status_replay hflags hsettings
  have hunclean : ¬(sourceAt readLeakThenAbort "trace").ReplaysCleanly {} {} := by
    rw [Source.replaysCleanly_iff, hstops]
    rintro ⟨report, ⟨⟩, hclean⟩
    cases hclean
  have hstatus := hone.2 hunclean
  refine ⟨hstatus, (hreports _ hstops).2, ?_, haborts _ hgoes⟩
  exact (hsame _ none _ none "trace" _ {} hflags hsettings rfl rfl rfl).trans hstatus

end Witness

end InfoFlow
