import Aprs.CommandLine
import Mathlib

/-!
A run of the command line, line by line. Input that ends a line can be cut off from what follows it:
both parts are read as if they were alone, except that lines are counted on. The first line that is
no text ends the run, and what was printed before it stays.
-/

namespace Aprs.CommandLine

section Lines

variable {a b u : Bytes} {before after : List Bytes}

def EndsLine (a : Bytes) : Prop := ∀ c ∈ a.getLast?, c = 10

theorem linesFrom_found (input current : Bytes) (found : List Bytes) :
    linesFrom input current found = found.reverse ++ linesFrom input current [] := by
  induction input generalizing current found with
  | nil => cases current <;> simp [linesFrom]
  | cons c rest ih =>
    rw [linesFrom, linesFrom]
    split
    · rw [ih [] (dropReturn current :: found), ih [] [dropReturn current]]
      simp
    · exact ih (c :: current) found

theorem linesFrom_append {current : Bytes} (hend : EndsLine a) (hopen : a = [] → current = []) :
    linesFrom (a ++ b) current [] = linesFrom a current [] ++ lines b := by
  induction a generalizing current with
  | nil =>
    rw [hopen rfl]
    rfl
  | cons c rest ih =>
    have hrest : EndsLine rest := by
      intro d hd
      exact hend d (by rw [List.getLast?_cons, Option.mem_def.mp hd]; rfl)
    rw [List.cons_append, linesFrom, linesFrom]
    split
    · rw [linesFrom_found, linesFrom_found rest, ih hrest fun _ => rfl, List.append_assoc]
    · next hc =>
      refine ih hrest fun hempty => ?_
      rw [hempty] at hend
      exact absurd (hend c rfl) hc

theorem lines_append (hend : EndsLine a) (b : Bytes) : lines (a ++ b) = lines a ++ lines b :=
  linesFrom_append hend fun _ => rfl

theorem linesFrom_of_not_mem (h : 10 ∉ u) (rest current : Bytes) :
    linesFrom (u ++ rest) current [] = linesFrom rest (u.reverse ++ current) [] := by
  induction u generalizing current with
  | nil => rfl
  | cons c u ih =>
    rw [List.mem_cons, not_or] at h
    rw [List.cons_append, linesFrom, if_neg (Ne.symm h.1), ih h.2]
    simp

theorem lines_cons (h : 10 ∉ u) (rest : Bytes) :
    lines (u ++ 10 :: rest) = dropReturn u.reverse :: lines rest := by
  rw [lines, linesFrom_of_not_mem h, linesFrom, if_pos rfl, linesFrom_found, List.append_nil]
  rfl

theorem lines_of_not_mem (h : 10 ∉ u) (hne : u ≠ []) : lines u = [u] := by
  have hlines := linesFrom_of_not_mem h [] []
  rw [List.append_nil, List.append_nil] at hlines
  rw [lines, hlines, linesFrom, List.reverse_reverse]
  · rfl
  · exact fun hempty => hne (List.reverse_eq_nil_iff.mp hempty)

theorem length_lines_le_one (h : 10 ∉ u) : (lines u).length ≤ 1 := by
  obtain rfl | hne := eq_or_ne u []
  · exact Nat.zero_le 1
  · rw [lines_of_not_mem h hne, List.length_singleton]

/-- The first lines are those of the start of the input that ends with them. -/
theorem exists_prefix_of_lines (h : lines a = before ++ after) (hafter : after ≠ []) :
    ∃ start, start <+: a ∧ EndsLine start ∧ lines start = before := by
  induction before generalizing a with
  | nil => exact ⟨[], List.nil_prefix, fun _ hc => (by cases hc), rfl⟩
  | cons line before ih =>
    -- Without a line feed there would be nothing after the first line.
    by_cases hfeed : 10 ∈ a
    · obtain ⟨u, rest, rfl, hu⟩ := List.eq_append_cons_of_mem hfeed
      rw [lines_cons hu, List.cons_append, List.cons.injEq] at h
      obtain ⟨start, ⟨more, rfl⟩, hend, hstart⟩ := ih h.2
      refine ⟨u ++ 10 :: start, ⟨more, by simp⟩, ?_, ?_⟩
      · intro c hc
        rw [List.getLast?_append, List.getLast?_cons, Option.some_or, Option.mem_some_iff] at hc
        cases hlast : start.getLast? with
        | none => rw [← hc, hlast]; rfl
        | some d => rw [← hc, hlast]; exact hend d hlast
      · rw [lines_cons hu, hstart, h.1]
    · have hlength := length_lines_le_one hfeed
      have hpositive := List.length_pos_iff.mpr hafter
      rw [h, List.cons_append, List.length_cons, List.length_append] at hlength
      omega

end Lines

def IsText (line : Bytes) : Prop := (Text.ofBytes? line).isSome = true

instance : DecidablePred IsText := fun line =>
  inferInstanceAs (Decidable ((Text.ofBytes? line).isSome = true))

/-- The line is more than a blank or a comment between packets. -/
def isPacket (line : Bytes) : Bool := (Text.ofBytes? line).any fun text => !isSkipped text

theorem readLine_of_not_isText {line : Bytes} (settings : Settings) (h : ¬IsText line) :
    readLine settings line = .unreadable := by
  rw [readLine, Option.not_isSome_iff_eq_none.mp h]

theorem readLine_cases {line : Bytes} (settings : Settings) (h : IsText line) :
    readLine settings line = .skipped ∧ isPacket line = false ∨
      isPacket line = true ∧ ((∃ document, readLine settings line = .decoded document) ∨
        ∃ error, readLine settings line = .rejected error) := by
  obtain ⟨text, htext⟩ := Option.isSome_iff_exists.mp h
  rw [readLine, isPacket, htext]
  dsimp only
  by_cases hskipped : isSkipped text = true
  · rw [if_pos hskipped]
    exact .inl ⟨rfl, by simp [hskipped]⟩
  · rw [if_neg hskipped]
    refine .inr ⟨by simp [hskipped], ?_⟩
    cases decode settings.options settings.now text with
    | ok packet => exact .inl ⟨_, rfl⟩
    | error failure => exact .inr ⟨_, rfl⟩

namespace Progress

variable {settings : Settings} {p q : Progress} {line : Bytes} {ls : List Bytes}

/-- Progress and what came after it, where lines are counted on. -/
def followedBy (p q : Progress) : Progress where
  lineCount := q.lineCount + p.lineCount
  documents := q.documents ++ p.documents
  failures := q.failures.map (Prod.map (· + p.lineCount) id) ++ p.failures
  isBroken := q.isBroken

theorem followedBy_start (hp : p.isBroken = false) : p.followedBy {} = p := by
  simp [followedBy, ← hp]

theorem step_followedBy :
    step settings (p.followedBy q) line = p.followedBy (step settings q line) := by
  cases hq : q.isBroken with
  | true => simp [step, followedBy, hq]
  | false =>
    have hnumber : q.lineCount + p.lineCount + 1 = q.lineCount + 1 + p.lineCount :=
      Nat.add_right_comm ..
    cases hline : readLine settings line <;> simp [step, followedBy, hq, hline, hnumber]

theorem foldl_followedBy :
    ls.foldl (step settings) (p.followedBy q) = p.followedBy (ls.foldl (step settings) q) := by
  induction ls generalizing q with
  | nil => rfl
  | cons line ls ih => rw [List.foldl_cons, List.foldl_cons, step_followedBy, ih]

theorem summary_followedBy :
    (p.followedBy q).outcome.summary = q.outcome.summary.map fun s =>
      ⟨p.decodedCount + s.decoded, p.failedCount + s.failed⟩ := by
  rw [outcome, outcome]
  cases hq : q.isBroken <;>
    simp [followedBy, hq, decodedCount, failedCount, Nat.add_comm]

/-- The progress over lines of text. Every packet among them left a document or a failure. -/
structure Accounts (p : Progress) (ls : List Bytes) : Prop where
  isBroken : p.isBroken = false
  lineCount : p.lineCount = ls.length
  packets : p.decodedCount + p.failedCount = ls.countP isPacket

theorem Accounts.step (h : p.Accounts ls) (settings : Settings) (hline : IsText line) :
    (p.step settings line).Accounts (ls ++ [line]) := by
  have hlength : (ls ++ [line]).length = p.lineCount + 1 := by
    rw [List.length_append, List.length_singleton, h.lineCount]
  have hpackets : (ls ++ [line]).countP isPacket =
      p.decodedCount + p.failedCount + if isPacket line then 1 else 0 := by
    rw [List.countP_append, List.countP_singleton, h.packets]
  rw [Progress.step, h.isBroken, if_neg Bool.false_ne_true]
  obtain ⟨hread, hpacket⟩ | ⟨hpacket, ⟨document, hread⟩ | ⟨error, hread⟩⟩ :=
    readLine_cases settings hline
  all_goals
    rw [hpacket] at hpackets
    rw [hread]
    refine ⟨rfl, hlength.symm, hpackets.symm ▸ ?_⟩
  · rfl
  · exact Nat.add_right_comm ..
  · rfl

theorem Accounts.foldl {more : List Bytes} (h : p.Accounts ls) (settings : Settings)
    (hmore : ∀ line ∈ more, IsText line) :
    (more.foldl (Progress.step settings) p).Accounts (ls ++ more) := by
  induction more generalizing p ls with
  | nil => rwa [List.append_nil]
  | cons line more ih =>
    rw [List.forall_mem_cons] at hmore
    rw [List.foldl_cons, List.append_cons]
    exact ih (h.step settings hmore.1) hmore.2

theorem step_of_not_isText (hp : p.isBroken = false) (hline : ¬IsText line) :
    step settings p line = { p with lineCount := p.lineCount + 1, isBroken := true } := by
  rw [step, hp, if_neg Bool.false_ne_true, readLine_of_not_isText settings hline]

theorem foldl_of_isBroken (hp : p.isBroken = true) : ls.foldl (step settings) p = p := by
  induction ls with
  | nil => rfl
  | cons line ls ih => rw [List.foldl_cons, step, if_pos hp, ih]

end Progress

section Runs

variable {settings : Settings} {a b input start line : Bytes} {after : List Bytes}

def progress (settings : Settings) (input : Bytes) : Progress :=
  (lines input).foldl (Progress.step settings) {}

theorem runLines_eq_outcome (input : Bytes) :
    runLines settings input = (progress settings input).outcome := rfl

theorem accounts_progress (settings : Settings) (htext : ∀ line ∈ lines input, IsText line) :
    (progress settings input).Accounts (lines input) :=
  have hstart : Progress.Accounts {} [] := ⟨rfl, rfl, rfl⟩
  hstart.foldl settings htext

theorem progress_append_of_isText (hend : EndsLine a) (htext : ∀ line ∈ lines a, IsText line) :
    progress settings (a ++ b) = (progress settings a).followedBy (progress settings b) := by
  have hbroken := (accounts_progress settings htext).isBroken
  calc progress settings (a ++ b)
      = (lines b).foldl (Progress.step settings) (progress settings a) := by
        rw [progress, lines_append hend, List.foldl_append]
        rfl
    _ = (lines b).foldl (Progress.step settings) ((progress settings a).followedBy {}) := by
        rw [Progress.followedBy_start hbroken]
    _ = (progress settings a).followedBy (progress settings b) := Progress.foldl_followedBy

theorem progress_of_break (h : lines input = lines start ++ line :: after)
    (hstart : ∀ line ∈ lines start, IsText line) (hline : ¬IsText line) :
    progress settings input =
      { progress settings start with
        lineCount := (progress settings start).lineCount + 1
        isBroken := true } := by
  have hbroken := (accounts_progress settings hstart).isBroken
  rw [progress, h, List.foldl_append, List.foldl_cons, ← progress,
    Progress.step_of_not_isText hbroken hline, Progress.foldl_of_isBroken rfl]

theorem runLines_append_of_isText (hend : EndsLine a) (htext : ∀ line ∈ lines a, IsText line) :
    (runLines settings (a ++ b)).output =
        (runLines settings a).output ++ (runLines settings b).output ∧
      (runLines settings (a ++ b)).failures = (runLines settings a).failures ++
        (runLines settings b).failures.map (Prod.map (· + (lines a).length) id) ∧
      (runLines settings (a ++ b)).exitCode = (runLines settings b).exitCode ∧
      ((runLines settings b).summary = none → (runLines settings (a ++ b)).summary = none) ∧
      ∀ s, (runLines settings b).summary = some s →
        ∃ r, (runLines settings a).summary = some r ∧
          (runLines settings (a ++ b)).summary =
            some ⟨r.decoded + s.decoded, r.failed + s.failed⟩ := by
  obtain ⟨hbroken, hcount, _⟩ := accounts_progress settings htext
  have hsummary : (progress settings a).outcome.summary =
      some ⟨(progress settings a).decodedCount, (progress settings a).failedCount⟩ := by
    rw [Progress.outcome, hbroken]
    rfl
  simp only [runLines_eq_outcome, progress_append_of_isText hend htext]
  refine ⟨?_, ?_, rfl, ?_, ?_⟩
  · simp [Progress.outcome, Progress.followedBy]
  · simp [Progress.outcome, Progress.followedBy, hcount]
  · intro hnone
    rw [Progress.summary_followedBy, hnone]
    rfl
  · intro s hs
    exact ⟨_, hsummary, by rw [Progress.summary_followedBy, hs, Option.map_some]⟩

/-- The run over lines that break off is that of the lines before the break, without an end. -/
theorem runLines_of_break (h : lines input = lines start ++ line :: after)
    (hstart : ∀ line ∈ lines start, IsText line) (hline : ¬IsText line) :
    runLines settings input =
      { runLines settings start with exitCode := 1, summary := none } := by
  rw [runLines_eq_outcome, progress_of_break h hstart hline]
  rfl

theorem runLines_of_isText (htext : ∀ line ∈ lines input, IsText line) :
    (runLines settings input).exitCode = 0 ∧ ∃ s, (runLines settings input).summary = some s ∧
      s.decoded + s.failed = (lines input).countP isPacket := by
  obtain ⟨hbroken, _, hpackets⟩ := accounts_progress settings htext
  rw [runLines_eq_outcome, Progress.outcome, hbroken]
  exact ⟨rfl, _, rfl, hpackets⟩

end Runs

section Environments

variable {environment : Environment} {arguments : Arguments} {config input : Option Text}

/-- Other bytes where the input is read from. A file that is missing stays missing. -/
def Environment.feed (environment : Environment) (input : Option Text) (x : Bytes) : Environment :=
  match input with
  | none => { environment with standardInput := x }
  | some path =>
    { environment with
      contents := fun p =>
        if p = path then (environment.contents p).map fun _ => x else environment.contents p }

def settings? (environment : Environment) (arguments : Arguments) : Option Settings := do
  let options ← loadOptions environment arguments.config
  let _ ← loadInput environment arguments.input
  let options :=
    { options with
      acceptAnyDestination := options.acceptAnyDestination || arguments.noDestinationValidation }
  return ⟨options, arguments.pretty, environment.now⟩

theorem loadInput_feed (x : Bytes) :
    loadInput (environment.feed input x) input = (loadInput environment input).map fun _ => x := by
  cases input with
  | none => rfl
  | some path => exact if_pos rfl

theorem loadOptions_feed (hconfig : ∀ path, config = some path → input ≠ some path) (x : Bytes) :
    loadOptions (environment.feed input x) config = loadOptions environment config := by
  cases config with
  | none => rfl
  | some path =>
    cases input with
    | none => rfl
    | some other =>
      have hne : path ≠ other := fun heq => hconfig path rfl (by rw [heq])
      have hcontents : (environment.feed (some other) x).contents path =
          environment.contents path := if_neg hne
      rw [loadOptions, loadOptions, hcontents]

theorem run_of_loadInput {words : List Text} {content : Bytes}
    (hwords : Invocation.ofWords words = .run arguments)
    (hinput : loadInput environment arguments.input = some content) :
    run environment words =
      (settings? environment arguments).elim { exitCode := 1 } (runLines · content) := by
  rw [run, hwords]
  dsimp only
  rw [runWith, hinput, settings?, hinput]
  cases loadOptions environment arguments.config <;> rfl

/-- All that the input changes about a run is what its lines come to. -/
theorem run_feed {words : List Text} (hwords : Invocation.ofWords words = .run arguments)
    (hconfig : ∀ path, arguments.config = some path → arguments.input ≠ some path) (x : Bytes) :
    run (environment.feed arguments.input x) words =
      (settings? environment arguments).elim { exitCode := 1 } (runLines · x) := by
  have hnow : (environment.feed arguments.input x).now = environment.now := by
    cases arguments.input <;> rfl
  rw [run, hwords]
  dsimp only
  rw [runWith, loadOptions_feed hconfig, loadInput_feed, settings?, hnow]
  cases loadOptions environment arguments.config with
  | none => rfl
  | some options =>
    cases loadInput environment arguments.input <;> rfl

end Environments

theorem exists_first_not_isText {ls : List Bytes} (h : ∃ line ∈ ls, ¬IsText line) :
    ∃ before line after, ls = before ++ line :: after ∧ (∀ line ∈ before, IsText line) ∧
      ¬IsText line := by
  obtain ⟨line, hmem, hline⟩ := h
  have hsome : (ls.find? fun line => !(Text.ofBytes? line).isSome).isSome = true :=
    List.find?_isSome.mpr ⟨line, hmem, by simpa [IsText] using hline⟩
  obtain ⟨first, hfirst⟩ := Option.isSome_iff_exists.mp hsome
  obtain ⟨hbad, before, after, hls, hbefore⟩ := List.find?_eq_some_iff_append.mp hfirst
  exact ⟨before, first, after, hls, fun line hline => by simpa [IsText] using hbefore line hline,
    by simpa [IsText] using hbad⟩

/-- Input that ends a line adds up with the input behind it: what is printed is put together, lines
are counted on, and the counts are sums. If a line before the end is no text, the run breaks off
there, and nothing behind it is read. -/
theorem run_append (environment : Environment) {words : List Text} {arguments : Arguments}
    (hwords : Invocation.ofWords words = .run arguments)
    (hconfig : ∀ path, arguments.config = some path → arguments.input ≠ some path)
    {a : Bytes} (hend : EndsLine a) (b : Bytes) :
    let runOn (input : Bytes) : Outcome := run (environment.feed arguments.input input) words
    ((∀ line ∈ lines a, IsText line) →
        (runOn (a ++ b)).output = (runOn a).output ++ (runOn b).output ∧
          (runOn (a ++ b)).failures =
            (runOn a).failures ++ (runOn b).failures.map (Prod.map (· + (lines a).length) id) ∧
          (runOn (a ++ b)).exitCode = (runOn b).exitCode ∧
          ((runOn b).summary = none → (runOn (a ++ b)).summary = none) ∧
          ∀ s, (runOn b).summary = some s → ∃ r, (runOn a).summary = some r ∧
            (runOn (a ++ b)).summary = some ⟨r.decoded + s.decoded, r.failed + s.failed⟩) ∧
      ((∃ line ∈ lines a, ¬IsText line) →
        runOn (a ++ b) = runOn a ∧ (runOn a).exitCode = 1 ∧ (runOn a).summary = none ∧
          ∃ start before line after, lines a = before ++ line :: after ∧
            (∀ line ∈ before, IsText line) ∧ ¬IsText line ∧
            start <+: a ∧ EndsLine start ∧ lines start = before ∧
            (runOn a).output = (runOn start).output ∧
            (runOn a).failures = (runOn start).failures) ∧
      ∀ input, (∀ line ∈ lines input, IsText line) →
        (loadOptions environment arguments.config).isSome = true →
        (loadInput environment arguments.input).isSome = true →
        (runOn input).exitCode = 0 ∧ ∃ s, (runOn input).summary = some s ∧
          s.decoded + s.failed = (lines input).countP isPacket := by
  intro runOn
  have hrun : ∀ input, runOn input =
      (settings? environment arguments).elim { exitCode := 1 } (runLines · input) :=
    run_feed hwords hconfig
  simp only [hrun]
  refine ⟨fun htext => ?_, fun hbad => ?_, fun input htext hoptions hinput => ?_⟩
  · cases settings? environment arguments with
    | none => simp
    | some settings => exact runLines_append_of_isText hend htext
  · obtain ⟨before, line, after, hlines, hbefore, hline⟩ := exists_first_not_isText hbad
    obtain ⟨start, hprefix, hstart, rfl⟩ :=
      exists_prefix_of_lines hlines (List.cons_ne_nil line after)
    have hboth : lines (a ++ b) = lines start ++ line :: (after ++ lines b) := by
      rw [lines_append hend, hlines, List.append_assoc, List.cons_append]
    cases settings? environment arguments with
    | none =>
      exact ⟨rfl, rfl, rfl, start, lines start, line, after, hlines, hbefore, hline, hprefix,
        hstart, rfl, rfl, rfl⟩
    | some settings =>
      dsimp only [Option.elim]
      rw [runLines_of_break hboth hbefore hline, runLines_of_break hlines hbefore hline]
      exact ⟨rfl, rfl, rfl, start, lines start, line, after, hlines, hbefore, hline, hprefix,
        hstart, rfl, rfl, rfl⟩
  · obtain ⟨options, hoptions⟩ := Option.isSome_iff_exists.mp hoptions
    obtain ⟨content, hinput⟩ := Option.isSome_iff_exists.mp hinput
    rw [settings?, hoptions, hinput]
    exact runLines_of_isText htext

/-- Comments and blank lines are counted, and failures behind them keep their places. A byte that is
no text ends the run. -/
theorem run_append_of_comment_and_blank :
    let environment : Environment := ⟨fun _ => none, [], 0⟩
    let runOn (input : Bytes) : Outcome := run (environment.feed none input) []
    let a := Text.bytes "# a\r\nX\r\n \n".toList
    let b := Text.bytes "A>B:>hi\nX".toList
    Invocation.ofWords [] = .run {} ∧ EndsLine a ∧ EndsLine [88, 10, 128, 10] ∧
      (∀ line ∈ lines a, IsText line) ∧ (∃ line ∈ lines [88, 10, 128, 10], ¬IsText line) ∧
      (runOn (a ++ b)).failures = [(2, "packet has no body"), (5, "packet has no body")] ∧
      (runOn (a ++ b)).exitCode = 0 ∧ (runOn (a ++ b)).summary = some ⟨1, 2⟩ ∧
      runOn ([88, 10, 128, 10] ++ b) = runOn [88, 10, 128, 10] ∧
      (runOn [88, 10, 128, 10]).exitCode = 1 ∧ (runOn [88, 10, 128, 10]).summary = none ∧
      (runOn [88, 10, 128, 10]).failures = [(1, "packet has no body")] := by
  intro environment runOn a b
  have hwords : Invocation.ofWords [] = .run {} := rfl
  have hconfig : ∀ path, (none : Option Text) = some path → (none : Option Text) ≠ some path :=
    fun _ h => by cases h
  have hend : EndsLine a := fun c hc => by cases hc; rfl
  have hend' : EndsLine [88, 10, 128, 10] := fun c hc => by cases hc; rfl
  -- The one evaluation: what the parts come to when they are run alone.
  have hruns : ((∀ line ∈ lines a, IsText line) ∧ (∃ line ∈ lines [88, 10, 128, 10], ¬IsText line) ∧
      (lines a).length = 3) ∧
      ((runOn a).failures = [(2, "packet has no body")] ∧ (runOn a).summary = some ⟨0, 1⟩) ∧
      ((runOn b).failures = [(2, "packet has no body")] ∧ (runOn b).exitCode = 0 ∧
        (runOn b).summary = some ⟨1, 1⟩) ∧
      (runOn [88, 10, 128, 10]).failures = [(1, "packet has no body")] := by
    decide +kernel
  obtain ⟨⟨htext, hbad, hlength⟩, ⟨hfailuresA, hsummaryA⟩, ⟨hfailuresB, hexitB, hsummaryB⟩,
    hfailures⟩ := hruns
  obtain ⟨hsum, _, _⟩ := run_append environment hwords hconfig hend b
  obtain ⟨_, hbreak, _⟩ := run_append environment hwords hconfig hend' b
  obtain ⟨_, hfailuresAB, hexitAB, _, hsummaryAB⟩ := hsum htext
  obtain ⟨hsame, hexit, hsummary, _⟩ := hbreak hbad
  obtain ⟨r, hr, hsummaryAB⟩ := hsummaryAB _ hsummaryB
  cases hsummaryA.symm.trans hr
  refine ⟨hwords, hend, hend', htext, hbad, ?_, hexitAB.trans hexitB, hsummaryAB, hsame, hexit,
    hsummary, hfailures⟩
  rw [show (runOn (a ++ b)).failures = _ from hfailuresAB, hlength,
    show (run (environment.feed none a) []).failures = _ from hfailuresA,
    show (run (environment.feed none b) []).failures = _ from hfailuresB]
  rfl

end Aprs.CommandLine
