import Conform.Command.Run
import Conform.Proofs.ReportText
import Conform.Proofs.RoundTrip

/-!
# What a run leaves

A run of `check` is told from outside by its status and by what it writes. Both say the same: the
status is 0 exactly if the files can be used and nothing is found in the tree under the given rules,
and then nothing but the report or the `OK` line is written; otherwise the last line written says
how many findings there are, which is how many objects the report has (`run_checks`). The tree is
read before the source, and a file that cannot be used leaves the standard output empty.

One thing breaks this, and it lies outside of the command: findings may have to be drawn in a
source, and where the drawing of one breaks off, the rest is not written, and the status is 101
(`Surroundings.BreaksOff`). `run_breaksOff_shortSource` shows such a run; in the other format the
same check ends with status 1.

All this is said for any surroundings. What arguments mean, what is said of a text that is no tree
and what a drawing looks like is left to them; the runs on fixed files have those of a terminal.
Files are given as what each of them holds, and a run keeps a list of those that it has read.
-/

namespace Conform.Command

/-! ## Runs on given files -/

/-- What each file gives: its text, or why there is none. -/
abbrev Files := String → Except FileError String

/-- Reads a file, and adds it to those that have been read. -/
def logged (files : Files) (file : String) : StateM (List String) (Except FileError String) :=
  fun looked => (files file, looked ++ [file])

/-- What a run of the command leaves, and the files that it has read, in order. -/
def Surroundings.runOn (s : Surroundings) (files : Files) (arguments : List String) :
    Result × List String :=
  (s.run (logged files) arguments).run []

/-- A file can be read, and it holds a tree. -/
def Holds (files : Files) (file : String) (m : Module) : Prop :=
  ∃ text, files file = .ok text ∧ Module.read? text = some m

/-- The files of a check can be used: the one holds the tree, and the other, if one is named, the
source. -/
structure Opens (files : Files) (a : CheckArguments) (m : Module) (source? : Option Source) :
    Prop where
  tree : Holds files a.file m
  name : source?.map Source.name = a.source
  text : ∀ source ∈ source?, files source.name = .ok source.text

variable {s : Surroundings} {files : Files} {arguments : List String} {a : CheckArguments}

/-- Either the tree cannot be read, or there is none, or the source that is named cannot be read, or
there is all that the check needs. -/
theorem unusable_or_exists_opens (files : Files) (a : CheckArguments) :
    (∃ cause, files a.file = .error cause) ∨
      (∃ text, files a.file = .ok text ∧ Module.read? text = none) ∨
      (∃ m file cause, Holds files a.file m ∧ a.source = some file ∧ files file = .error cause) ∨
      ∃ m source?, Opens files a m source? := by
  cases htree : files a.file with
  | error cause => exact .inl ⟨cause, rfl⟩
  | ok text =>
    cases hread : Module.read? text with
    | none => exact .inr (.inl ⟨text, rfl, hread⟩)
    | some m =>
      have hm : Holds files a.file m := ⟨text, htree, hread⟩
      cases hsource : a.source with
      | none => exact .inr (.inr (.inr ⟨m, none, hm, hsource.symm, nofun⟩))
      | some file =>
        cases hfile : files file with
        | error cause => exact .inr (.inr (.inl ⟨m, file, cause, hm, rfl, hfile⟩))
        | ok text =>
          refine .inr (.inr (.inr ⟨m, some ⟨file, text⟩, hm, hsource.symm, ?_⟩))
          rintro source ⟨⟩
          exact hfile

/-- What follows a reading gets what the file gives. -/
theorem run_logged_bind {α : Type} {file : String} {looked : List String}
    (next : Except FileError String → StateM (List String) α) :
    (logged files file >>= next).run looked = (next (files file)).run (looked ++ [file]) := rfl

section

variable (ha : s.interpret arguments = .ok a)

include ha

theorem runOn_eq_run_runCheck :
    s.runOn files arguments = (s.runCheck (logged files) a).run [] := by
  rw [Surroundings.runOn, Surroundings.run, ha]

theorem runOn_of_unreadable_tree {cause : FileError} (htree : files a.file = .error cause) :
    s.runOn files arguments = (⟨1, [], ["error: " ++ unreadable a.file cause]⟩, [a.file]) := by
  rw [runOn_eq_run_runCheck ha, Surroundings.runCheck, run_logged_bind, htree]
  rfl

theorem runOn_of_noTree {text : String} (htree : files a.file = .ok text)
    (hread : Module.read? text = none) :
    s.runOn files arguments =
      (⟨1, [], ["error: " ++ noTree a.file (s.complaint text)]⟩, [a.file]) := by
  rw [runOn_eq_run_runCheck ha, Surroundings.runCheck, run_logged_bind, htree]
  dsimp only
  rw [hread]
  rfl

theorem runOn_eq_run_checkTree {m : Module} (hm : Holds files a.file m) :
    s.runOn files arguments = (s.checkTree (logged files) a m).run [a.file] := by
  obtain ⟨text, htree, hread⟩ := hm
  rw [runOn_eq_run_runCheck ha, Surroundings.runCheck, run_logged_bind, htree]
  dsimp only
  rw [hread]
  rfl

theorem runOn_of_unreadable_source {m : Module} {file : String} {cause : FileError}
    (hm : Holds files a.file m) (hsource : a.source = some file)
    (hfile : files file = .error cause) :
    s.runOn files arguments =
      (⟨1, [], ["error: " ++ unreadable file cause]⟩, [a.file, file]) := by
  rw [runOn_eq_run_checkTree ha hm, Surroundings.checkTree, hsource, readSource, bind_assoc,
    run_logged_bind, hfile]
  rfl

theorem runOn_of_opens {m : Module} {source? : Option Source} (h : Opens files a m source?) :
    s.runOn files arguments =
      (present s.draw a.format source? m (check (.ofList a.rules) m),
        a.file :: a.source.toList) := by
  rw [runOn_eq_run_checkTree ha h.tree, Surroundings.checkTree, ← h.name]
  cases source? with
  | none => rfl
  | some source =>
    rw [Option.map_some, readSource, bind_assoc, run_logged_bind, h.text source rfl]
    rfl

end

/-! ## Drawings -/

/-- Findings are drawn in a source, and one of them is not drawn to its end. -/
def Surroundings.BreaksOff (s : Surroundings) (format : Format) (source? : Option Source)
    (ds : List Diagnostic) : Prop :=
  format = .human ∧ ∃ source ∈ source?, ∃ d ∈ ds, (s.draw source d).isComplete = false

/-- The drawing of findings is complete if that of each one is. -/
theorem isComplete_drawAll {draw : Diagnostic → Drawing} {ds : List Diagnostic} :
    (drawAll draw ds).isComplete = true ↔ ∀ d ∈ ds, (draw d).isComplete = true := by
  induction ds with
  | nil => simp [drawAll]
  | cons d rest ih =>
    rw [List.forall_mem_cons, ← ih, drawAll]
    dsimp only
    split
    · next h => exact (and_iff_right h).symm
    · next h => exact iff_of_false h fun hboth => h hboth.1

/-- Without a drawing nothing breaks off. -/
theorem isComplete_shown {format : Format} {source? : Option Source} {ds : List Diagnostic} :
    (shown s.draw format source? ds).isComplete = true ↔ ¬ s.BreaksOff format source? ds := by
  cases format with
  | json => simp [shown, Surroundings.BreaksOff]
  | human =>
    cases source? with
    | none => simp [shown, Surroundings.BreaksOff]
    | some source => simp [shown, isComplete_drawAll, Surroundings.BreaksOff]

/-! ## What is shown of a check -/

/-- What a result tells of a checked module. -/
structure Shows (s : Surroundings) (format : Format) (source? : Option Source) (m : Module)
    (o : Outcome) (r : Result) : Prop where
  clean : r.status = 0 ↔ o.isClean = true
  broken : r.status = 101 ↔ s.BreaksOff format source? o.diagnostics
  status : r.status = 0 ∨ r.status = 1 ∨ r.status = 101
  json : format = .json → ended r.out = report o.diagnostics ++ "\n"
  human : format = .human → ended r.out =
    if o.isClean then
      "OK: " ++ Nat.repr m.functions.length ++ " functions, " ++ Nat.repr m.records.length ++
        " records\n"
    else ""
  quiet : r.status = 0 → r.err = []
  count : r.status = 1 →
    r.err.getLast? = some ("error: " ++ Nat.repr o.diagnostics.length ++ " type error(s) found")

theorem not_breaksOff_of_clean {format : Format} {source? : Option Source} {o : Outcome}
    (h : o.isClean = true) : ¬ s.BreaksOff format source? o.diagnostics := by
  rw [Outcome.isClean, List.isEmpty_iff] at h
  rintro ⟨_, source, _, d, hd, _⟩
  exact absurd (h ▸ hd) (by simp)

theorem ended_singleton (line : String) : ended [line] = line ++ "\n" := by
  simp [ended]

theorem shows_present (s : Surroundings) (format : Format) (source? : Option Source) (m : Module)
    (o : Outcome) : Shows s format source? m o (present s.draw format source? m o) := by
  have hout : (present s.draw format source? m o).out = outLines format m o := by
    dsimp only [present]
    split_ifs <;> rfl
  have hjson : format = .json → ended (present s.draw format source? m o).out =
      report o.diagnostics ++ "\n" := by
    rintro rfl
    rw [hout, outLines, ended_singleton]
  have hhuman : format = .human → ended (present s.draw format source? m o).out =
      if o.isClean then
        "OK: " ++ Nat.repr m.functions.length ++ " functions, " ++ Nat.repr m.records.length ++
          " records\n"
      else "" := by
    rintro rfl
    rw [hout, outLines]
    split_ifs
    · rw [ended_singleton, String.append_assoc]
      rfl
    · rfl
  by_cases hclean : o.isClean = true
  · have hbroken : ¬ s.BreaksOff format source? o.diagnostics := not_breaksOff_of_clean hclean
    have heq : present s.draw format source? m o = ⟨0, outLines format m o, []⟩ := if_pos hclean
    exact ⟨by simp [heq, hclean], by simp [heq, hbroken], by simp [heq], hjson, hhuman,
      by simp [heq], by simp [heq]⟩
  · by_cases hbroken : s.BreaksOff format source? o.diagnostics
    · have heq : present s.draw format source? m o =
          ⟨101, outLines format m o, (shown s.draw format source? o.diagnostics).lines⟩ :=
        (if_neg hclean).trans (if_neg fun h => isComplete_shown.mp h hbroken)
      exact ⟨by simp [heq, hclean], by simp [heq, hbroken], by simp [heq], hjson, hhuman,
        by simp [heq], by simp [heq]⟩
    · have heq : present s.draw format source? m o =
          ⟨1, outLines format m o, (shown s.draw format source? o.diagnostics).lines ++
            ["error: " ++ Nat.repr o.diagnostics.length ++ " type error(s) found"]⟩ :=
        (if_neg hclean).trans (if_pos (isComplete_shown.mpr hbroken))
      exact ⟨by simp [heq, hclean], by simp [heq, hbroken], by simp [heq], hjson, hhuman,
        by simp [heq], by simp [heq]⟩

/-! ## The run as a whole -/

section

variable (ha : s.interpret arguments = .ok a)

include ha

theorem shows_runOn {m : Module} {source? : Option Source} (h : Opens files a m source?) :
    Shows s a.format source? m (check (.ofList a.rules) m) (s.runOn files arguments).1 := by
  rw [runOn_of_opens ha h]
  exact shows_present _ _ _ _ _

theorem status_of_not_opens (h : ¬ ∃ m source?, Opens files a m source?) :
    (s.runOn files arguments).1.status = 1 := by
  rcases unusable_or_exists_opens files a with ⟨cause, htree⟩ | ⟨text, htree, hread⟩ |
    ⟨m, file, cause, hm, hsource, hfile⟩ | hopens
  · rw [runOn_of_unreadable_tree ha htree]
  · rw [runOn_of_noTree ha htree hread]
  · rw [runOn_of_unreadable_source ha hm hsource hfile]
  · exact absurd hopens h

theorem status_cases : (s.runOn files arguments).1.status = 0 ∨
    (s.runOn files arguments).1.status = 1 ∨ (s.runOn files arguments).1.status = 101 := by
  by_cases hopens : ∃ m source?, Opens files a m source?
  · obtain ⟨m, source?, hopens⟩ := hopens
    exact (shows_runOn ha hopens).status
  · exact .inr (.inl (status_of_not_opens ha hopens))

/-- A status other than 1 comes from a check, and tells of it what that tells. -/
theorem status_eq_iff {status : UInt8} (hne : status ≠ 1) {Told : Module → Option Source → Prop}
    (htold : ∀ {m source?}, Opens files a m source? →
      ((s.runOn files arguments).1.status = status ↔ Told m source?)) :
    (s.runOn files arguments).1.status = status ↔
      ∃ m source?, Opens files a m source? ∧ Told m source? := by
  constructor
  · intro hstatus
    by_cases hopens : ∃ m source?, Opens files a m source?
    · obtain ⟨m, source?, hopens⟩ := hopens
      exact ⟨m, source?, hopens, (htold hopens).mp hstatus⟩
    · rw [status_of_not_opens ha hopens] at hstatus
      exact absurd hstatus.symm hne
  · rintro ⟨m, source?, hopens, h⟩
    exact (htold hopens).mpr h

theorem status_eq_zero_iff : (s.runOn files arguments).1.status = 0 ↔
    ∃ m source?, Opens files a m source? ∧ (check (.ofList a.rules) m).isClean = true := by
  have hne : (0 : UInt8) ≠ 1 := by decide
  exact status_eq_iff ha hne fun h => (shows_runOn ha h).clean

theorem status_eq_101_iff : (s.runOn files arguments).1.status = 101 ↔
    ∃ m source?, Opens files a m source? ∧
      s.BreaksOff a.format source? (check (.ofList a.rules) m).diagnostics := by
  have hne : (101 : UInt8) ≠ 1 := by decide
  exact status_eq_iff ha hne fun h => (shows_runOn ha h).broken

theorem status_eq_one (hzero : (s.runOn files arguments).1.status ≠ 0)
    (hcomplete : (s.runOn files arguments).1.status ≠ 101) :
    (s.runOn files arguments).1.status = 1 :=
  ((status_cases ha).resolve_left hzero).resolve_right hcomplete

end

/-- The format has no part in what the files give. -/
theorem opens_withFormat_iff {m : Module} {source? : Option Source} {format : Format} :
    Opens files { a with format } m source? ↔ Opens files a m source? :=
  ⟨fun h => ⟨h.tree, h.name, h.text⟩, fun h => ⟨h.tree, h.name, h.text⟩⟩

theorem status_eq_of_format {arguments' : List String} {format : Format}
    (ha : s.interpret arguments = .ok a) (ha' : s.interpret arguments' = .ok { a with format })
    (hcomplete : (s.runOn files arguments).1.status ≠ 101)
    (hcomplete' : (s.runOn files arguments').1.status ≠ 101) :
    (s.runOn files arguments').1.status = (s.runOn files arguments).1.status := by
  have hzero : (s.runOn files arguments').1.status = 0 ↔
      (s.runOn files arguments).1.status = 0 := by
    rw [status_eq_zero_iff ha, status_eq_zero_iff ha']
    simp only [opens_withFormat_iff]
  by_cases h : (s.runOn files arguments).1.status = 0
  · rw [h, hzero.mpr h]
  · rw [status_eq_one ha h hcomplete, status_eq_one ha' (mt hzero.mp h) hcomplete']

theorem exists_objects_of_json {arguments' : List String} {m : Module} {source? : Option Source}
    (ha' : s.interpret arguments' = .ok { a with format := .json }) (h : Opens files a m source?) :
    ∃ objects, Json.read? (ended (s.runOn files arguments').1.out) = some (.arr objects) ∧
      objects.length = (check (.ofList a.rules) m).diagnostics.length := by
  have hshows := shows_runOn ha' (opens_withFormat_iff.mpr h)
  exact ⟨_, by rw [hshows.json rfl, read?_report_line], List.length_map _⟩

/-- In any surroundings, for all arguments that are accepted and whatever the files hold, the status
is 0 exactly if the files can be used and the check is clean. It is 101 exactly if the drawing of a
finding breaks off, which takes the human format and a source; otherwise it is 1, and the same in
either format. A file that cannot be used is named by the only line that is written, and no file is
read after it; the tree is read first. Else what is written is the report or the `OK` line, and then
the number of findings, which is that of the objects in the report of the same check. -/
theorem run_checks (s : Surroundings) (files : Files) {arguments : List String}
    {a : CheckArguments} (ha : s.interpret arguments = .ok a) :
    ((s.runOn files arguments).1.status = 0 ↔
      ∃ m source?, Opens files a m source? ∧ (check (.ofList a.rules) m).isClean = true) ∧
    ((s.runOn files arguments).1.status = 101 ↔
      ∃ m source?, Opens files a m source? ∧
        s.BreaksOff a.format source? (check (.ofList a.rules) m).diagnostics) ∧
    ((s.runOn files arguments).1.status = 0 ∨ (s.runOn files arguments).1.status = 1 ∨
      (s.runOn files arguments).1.status = 101) ∧
    (∀ arguments' format, s.interpret arguments' = .ok { a with format } →
      (s.runOn files arguments).1.status ≠ 101 → (s.runOn files arguments').1.status ≠ 101 →
      (s.runOn files arguments').1.status = (s.runOn files arguments).1.status) ∧
    (∀ cause, files a.file = .error cause →
      s.runOn files arguments = (⟨1, [], ["error: " ++ unreadable a.file cause]⟩, [a.file])) ∧
    (∀ text, files a.file = .ok text → Module.read? text = none →
      s.runOn files arguments =
        (⟨1, [], ["error: " ++ noTree a.file (s.complaint text)]⟩, [a.file])) ∧
    (∀ m file cause, Holds files a.file m → a.source = some file → files file = .error cause →
      s.runOn files arguments =
        (⟨1, [], ["error: " ++ unreadable file cause]⟩, [a.file, file])) ∧
    ∀ m source?, Opens files a m source? →
      (s.runOn files arguments).2 = a.file :: a.source.toList ∧
      Shows s a.format source? m (check (.ofList a.rules) m) (s.runOn files arguments).1 ∧
      ∀ arguments', s.interpret arguments' = .ok { a with format := .json } →
        ∃ objects, Json.read? (ended (s.runOn files arguments').1.out) = some (.arr objects) ∧
          objects.length = (check (.ofList a.rules) m).diagnostics.length := by
  refine ⟨status_eq_zero_iff ha, status_eq_101_iff ha, status_cases ha,
    fun _ _ ha' => status_eq_of_format ha ha', fun _ => runOn_of_unreadable_tree ha,
    fun _ => runOn_of_noTree ha, fun _ _ _ => runOn_of_unreadable_source ha,
    fun m source? h => ?_⟩
  refine ⟨?_, shows_runOn ha h, fun _ ha' => exists_objects_of_json ha' h⟩
  rw [runOn_of_opens ha h]

/-! ## One finding in a source

A check finds one name that means nothing. Whether the run breaks off is up to its drawing.
-/

/-- A name that means nothing. -/
def strayName (span : Span) : Module :=
  ⟨[.stmt (.expr (.name ⟨"zz", span⟩))]⟩

/-- Its tree, and a source. -/
def strayFiles (span : Span) (source : String) : Files
  | "t.json" => .ok (strayName span).render
  | "s.py" => .ok source
  | _ => .error .notFound

/-- The arguments of a check of the two files. -/
def checkSource (format : Format) : CheckArguments :=
  ⟨"t.json", some "s.py", [], format⟩

/-- How they are written. -/
def sourceCommand : Format → List String
  | .human => ["check", "t.json", "--source", "s.py"]
  | .json => ["check", "t.json", "--source", "s.py", "--format", "json"]

theorem opens_strayFiles (span : Span) (source : String) (format : Format) :
    Opens (strayFiles span source) (checkSource format) (strayName span)
      (some ⟨"s.py", source⟩) where
  tree := by
    have hdepth : (strayName span).toJson.depth = 7 := rfl
    exact ⟨(strayName span).render, rfl, Module.read?_render (by rw [hdepth]; decide)⟩
  name := rfl
  text := by
    rintro source ⟨⟩
    rfl

theorem diagnostics_strayName (span : Span) :
    (check (.ofList []) (strayName span)).diagnostics = [.undefinedName "zz" span] := rfl

/-- The name is found, and its drawing alone decides between the two statuses that are left. -/
theorem status_strayFiles {span : Span} {source : String} {format : Format}
    (ha : s.interpret arguments = .ok (checkSource format)) :
    (s.runOn (strayFiles span source) arguments).1.status =
      if format = .human ∧ (s.draw ⟨"s.py", source⟩ (.undefinedName "zz" span)).isComplete = false
      then 101 else 1 := by
  have hshows := shows_runOn ha (opens_strayFiles span source format)
  have hbroken : s.BreaksOff format (some ⟨"s.py", source⟩)
      (check (.ofList []) (strayName span)).diagnostics ↔ format = .human ∧
        (s.draw ⟨"s.py", source⟩ (.undefinedName "zz" span)).isComplete = false := by
    simp [Surroundings.BreaksOff, diagnostics_strayName]
  have hfound : ¬ (check (.ofList []) (strayName span)).isClean = true := by
    rw [Outcome.isClean, diagnostics_strayName]
    exact Bool.false_ne_true
  split_ifs with h
  · exact hshows.broken.mpr (hbroken.mpr h)
  · exact (hshows.status.resolve_left (mt hshows.clean.mp hfound)).resolve_right
      (mt hshows.broken.mp (mt hbroken.mp h))

/-- The two formats tell the same check differently if the drawing breaks off. -/
theorem statuses_of_drawing_breaksOff {span : Span} {source : String}
    (ha : ∀ format, s.interpret (sourceCommand format) = .ok (checkSource format))
    (hdrawn : (s.draw ⟨"s.py", source⟩ (.undefinedName "zz" span)).isComplete = false) :
    (s.runOn (strayFiles span source) (sourceCommand .human)).1.status = 101 ∧
      (s.runOn (strayFiles span source) (sourceCommand .json)).1.status = 1 := by
  constructor
  · rw [status_strayFiles (ha .human)]
    exact if_pos ⟨rfl, hdrawn⟩
  · rw [status_strayFiles (ha .json)]
    exact if_neg fun h => nomatch h.1

/-! ## Runs at a terminal -/

/-- A terminal, with what is said of an empty text. -/
def emptyTextTerminal : Surroundings :=
  terminal fun _ => "EOF while parsing a value at line 1 column 0"

theorem interpret_sourceCommand (format : Format) :
    emptyTextTerminal.interpret (sourceCommand format) = .ok (checkSource format) := by
  cases format <;> rfl

/-- A name that the source has is reported in either format with the same status, and where the file
of the tree is missing, or empty, only that is said. -/
theorem run_checks_strayName :
    emptyTextTerminal.interpret (sourceCommand .human) = .ok (checkSource .human) ∧
    emptyTextTerminal.interpret (sourceCommand .json) = .ok (checkSource .json) ∧
    Opens (strayFiles ⟨0, 2⟩ "zz\n") (checkSource .human) (strayName ⟨0, 2⟩)
      (some ⟨"s.py", "zz\n"⟩) ∧
    (emptyTextTerminal.runOn (strayFiles ⟨0, 2⟩ "zz\n") (sourceCommand .human)).1.status = 1 ∧
    (emptyTextTerminal.runOn (strayFiles ⟨0, 2⟩ "zz\n") (sourceCommand .json)).1.status = 1 ∧
    (emptyTextTerminal.runOn (strayFiles ⟨0, 2⟩ "zz\n") (sourceCommand .human)).1.err.getLast? =
      some "error: 1 type error(s) found" ∧
    (∃ objects, Json.read? (ended (emptyTextTerminal.runOn (strayFiles ⟨0, 2⟩ "zz\n")
        (sourceCommand .json)).1.out) = some (.arr objects) ∧ objects.length = 1) ∧
    (emptyTextTerminal.runOn (strayFiles ⟨0, 2⟩ "zz\n") (sourceCommand .human)).2 =
      ["t.json", "s.py"] ∧
    emptyTextTerminal.runOn (fun _ => .error .notFound) (sourceCommand .human) =
      (⟨1, [], ["error: cannot read t.json: No such file or directory (os error 2)"]⟩,
        ["t.json"]) ∧
    emptyTextTerminal.runOn (fun _ => .ok "") (sourceCommand .human) =
      (⟨1, [], ["error: t.json: invalid syntax tree: " ++
        "EOF while parsing a value at line 1 column 0"]⟩, ["t.json"]) := by
  have hhuman := interpret_sourceCommand .human
  have hjson := interpret_sourceCommand .json
  have hopens := opens_strayFiles ⟨0, 2⟩ "zz\n" .human
  have hdrawn : (emptyTextTerminal.draw ⟨"s.py", "zz\n"⟩ (.undefinedName "zz" ⟨0, 2⟩)).isComplete =
      true := by
    decide +kernel
  have hstatus : ∀ format, (emptyTextTerminal.runOn (strayFiles ⟨0, 2⟩ "zz\n")
      (sourceCommand format)).1.status = 1 := by
    intro format
    rw [status_strayFiles (interpret_sourceCommand format), hdrawn]
    exact if_neg fun h => Bool.false_ne_true h.2.symm
  obtain ⟨_, _, _, hformat, _, _, _, hchecked⟩ :=
    run_checks emptyTextTerminal (strayFiles ⟨0, 2⟩ "zz\n") hhuman
  have hsame := hformat _ .json hjson (by rw [hstatus]; decide) (by rw [hstatus]; decide)
  obtain ⟨hlooked, hshows, hreport⟩ := hchecked _ _ hopens
  have hcount := hshows.count (hstatus .human)
  obtain ⟨objects, hobjects, hlength⟩ := hreport _ hjson
  obtain ⟨_, _, _, _, hunreadable, _⟩ :=
    run_checks emptyTextTerminal (fun _ => .error .notFound) hhuman
  obtain ⟨_, _, _, _, _, hnoTree, _⟩ := run_checks emptyTextTerminal (fun _ => .ok "") hhuman
  exact ⟨hhuman, hjson, hopens, hstatus .human, hsame.trans (hstatus .human), hcount,
    ⟨objects, hobjects, hlength⟩, hlooked, hunreadable .notFound rfl, hnoTree "" rfl rfl⟩

/-- An empty place one byte behind the source. Wherever its drawing breaks off, so does the run, and
the status is not the one that the same check has in the other format. At a terminal it breaks
off. -/
theorem run_breaksOff_shortSource :
    (emptyTextTerminal.draw ⟨"s.py", "x\n"⟩ (.undefinedName "zz" ⟨3, 3⟩)).isComplete = false ∧
    emptyTextTerminal.interpret (sourceCommand .human) = .ok (checkSource .human) ∧
    (emptyTextTerminal.runOn (strayFiles ⟨3, 3⟩ "x\n") (sourceCommand .human)).1.status = 101 ∧
    emptyTextTerminal.interpret (sourceCommand .json) = .ok (checkSource .json) ∧
    (emptyTextTerminal.runOn (strayFiles ⟨3, 3⟩ "x\n") (sourceCommand .json)).1.status = 1 ∧
    ∀ s : Surroundings,
      (∀ format, s.interpret (sourceCommand format) = .ok (checkSource format)) →
      (s.draw ⟨"s.py", "x\n"⟩ (.undefinedName "zz" ⟨3, 3⟩)).isComplete = false →
      (s.runOn (strayFiles ⟨3, 3⟩ "x\n") (sourceCommand .human)).1.status = 101 ∧
      (s.runOn (strayFiles ⟨3, 3⟩ "x\n") (sourceCommand .json)).1.status = 1 := by
  have hdrawn : (emptyTextTerminal.draw ⟨"s.py", "x\n"⟩
      (.undefinedName "zz" ⟨3, 3⟩)).isComplete = false := by
    decide +kernel
  obtain ⟨hhuman, hjson⟩ := statuses_of_drawing_breaksOff interpret_sourceCommand hdrawn
  exact ⟨hdrawn, interpret_sourceCommand .human, hhuman, interpret_sourceCommand .json, hjson,
    fun _ => statuses_of_drawing_breaksOff⟩

end Conform.Command
