import SchemaModels.Command.Run
import SchemaModels.Proofs.Written

/-! # Runs of the command

A run of the command does what the generator does: it writes the generated module and nothing else, or
it fails and leaves all files as they were; only a text that cannot be encoded leaves its file empty. Each
way through a run has its equation (`run_of_unloaded`, `run_of_failure`, `run_of_module`), and the switches
are the two settings that they turn on (`options_force`). -/

namespace SchemaModels

/-! ## Switches -/

/-- Settings of which a switch that is on sets the one it stands for. -/
def Settings.force (s : Settings) (strict comment : Bool) : Settings :=
  { s with
    strictReferences := if strict then .bool true else s.strictReferences
    addGenerationComment := if comment then .bool true else s.addGenerationComment }

namespace Command

/-- What the switches mean is what the settings mean that they set. -/
theorem Request.options_force (r : Request) (s : Settings) :
    r.options s.options = (s.force r.strict r.comment).options := by
  cases hstrict : r.strict <;> cases hcomment : r.comment <;>
    simp [options, Settings.options, Settings.optionsWith, Settings.force, Setting.truthy, hstrict,
      hcomment]

/-- A request has the generator do its work with the settings that its switches set. -/
theorem Request.generateWith_options (r : Request) (schema : String) (s : Settings) :
    r.generateWith schema s.options =
      generate (s.force r.strict r.comment).options schema
        ("Generated by " ++ line parameters r.values) := by
  rw [generateWith, options_force, generationComment]

/-! ## Files -/

namespace Workspace

variable {w : Workspace} {l : Location}

/-- Puts a text in the place of whatever a file holds. -/
def put (w : Workspace) (l : Location) (text : String) : Workspace :=
  { w with files := w.files.insert l text.toUTF8 }

/-- Whether a file can be opened for writing does not depend on what is written. -/
theorem writeText_of_ok {w' : Workspace} {text : String} (h : w.writeText l text = .ok w')
    (other : String) : w.writeText l other = .ok (w.put l other) := by
  unfold writeText at h ⊢
  split at h
  case isTrue => cases h
  case isFalse hlimit =>
    rw [if_neg hlimit]
    cases hobstacle : w.obstacle? [] l with
    | some fault => simp [hobstacle] at h
    | none => rfl

theorem read_put_self (text : String) : (w.put l text).read l = .ok text.toUTF8 := by
  rw [read, put, Table.get?_insert_self]

theorem get?_files_put {l' : Location} (text : String) (h : l' ≠ l) :
    (w.put l text).files.get? l' = w.files.get? l' :=
  Table.get?_insert_of_ne h

theorem exists?_of_isFile (h : w.isFile l = true) : w.exists? l = true := by
  rw [exists?, h, Bool.true_or]

end Workspace

/-! ## Ways through a run -/

namespace Request

variable {r : Request} {w : Workspace} {schema : String} {settings : Settings}

theorem run_of_unloaded {crash : Crash} (hschema : r.readSchema w = .ok schema)
    (hsettings : r.readSettings w = .error crash) : r.run w = ⟨.crashed crash, [], w⟩ := by
  simp only [run, hschema, hsettings]

theorem run_of_failure {f : Failure} (hschema : r.readSchema w = .ok schema)
    (hsettings : r.readSettings w = .ok settings)
    (hresult : (r.generateWith schema settings.options).result = .error f) :
    r.run w =
      ⟨r.endingOf w f, r.shownLog (r.generateWith schema settings.options).log, w⟩ := by
  simp only [run, hschema, hsettings, hresult]

/-- When there is a module it is written. If its text cannot be encoded the file is left empty. -/
theorem run_of_module {m : GeneratedModule} {out : Location} {w' : Workspace}
    (hschema : r.readSchema w = .ok schema) (hsettings : r.readSettings w = .ok settings)
    (hresult : (r.generateWith schema settings.options).result = .ok m)
    (hout : r.output = some out) (hopen : w.writeText out "" = .ok w') :
    r.run w =
      let log := r.shownLog (r.generateWith schema settings.options).log
      if r.isWritable schema settings m then ⟨.done, log, w.put out m.source⟩
      else ⟨.crashed (.file .unencodable), log, w.put out ""⟩ := by
  cases hwritable : r.isWritable schema settings m <;>
    simp [run, hschema, hsettings, hresult, hwritable, writeOutput, hout,
      Workspace.writeText_of_ok hopen, Except.mapError]

/-- A failure to generate ends a run with an error, reported or not. -/
theorem exitCode_endingOf (f : Failure) (log : List LogEntry) (w' : Workspace) :
    Outcome.exitCode ⟨r.endingOf w f, log, w'⟩ = 1 := by
  cases f <;> rfl

theorem endingOf_ne_file (f : Failure) (fault : FileFault) :
    r.endingOf w f ≠ .crashed (.file fault) := by
  cases f <;> simp [endingOf]

theorem locate_of_not_mem {p : String} (h : '\x00' ∉ p.toList) :
    locate w p = .ok (resolve w.directory p) := by
  rw [locate, if_neg (by simpa using h)]

theorem locateExisting_of_isFile {p : String} (h : '\x00' ∉ p.toList)
    (hfile : w.isFile (resolve w.directory p) = true) :
    locateExisting w p = .ok (resolve w.directory p) := by
  simp only [locateExisting, locate_of_not_mem h, bind, Except.bind,
    Workspace.exists?_of_isFile hfile, if_true]
  rfl

end Request

/-! ## From arguments to a request -/

namespace Arguments

variable {a : Arguments} {w : Workspace} {path output : String} {args : List String}

/-- What arguments with two paths ask for. -/
def request (a : Arguments) (directory : Location) (path output : String) : Request where
  config := a.config.map (resolve directory)
  strict := a.strict
  comment := a.comment
  verbose := a.verbose
  schema := some (resolve directory path)
  output := some (resolve directory output)

/-- The files that arguments name can be opened: the schema and the settings to read, the output to
write. -/
structure Openable (a : Arguments) (w : Workspace) (path output : String) : Prop where
  paths : a.paths = [path, output]
  valid : ∀ p ∈ a.config.toList ++ [path, output], '\x00' ∉ p.toList
  schema : w.isFile (resolve w.directory path) = true
  config : ∀ c ∈ a.config, w.isFile (resolve w.directory c) = true
  output : ∃ w', w.writeText (resolve w.directory output) "" = .ok w'

theorem Openable.ofArguments_eq (h : a.Openable w path output) (hargs : ofList? args = some a)
    (hhelp : a.help = false) :
    Request.ofArguments w args = .ok (a.request w.directory path output) := by
  have hschema := Request.locateExisting_of_isFile (h.valid path (by simp)) h.schema
  have houtput := Request.locate_of_not_mem (w := w) (h.valid output (by simp))
  have hconfig : a.config.mapM (Request.locateExisting w) =
      .ok (a.config.map (resolve w.directory)) := by
    cases hc : a.config with
    | none => rfl
    | some c =>
      rw [Option.mapM_some,
        Request.locateExisting_of_isFile (h.valid c (by simp [hc])) (h.config c hc)]
      rfl
  simp only [Request.ofArguments, hargs, hhelp, hconfig, h.paths, bind, Except.bind,
    Bool.false_eq_true, if_false, List.getElem?_cons_zero, List.getElem?_cons_succ,
    Option.mapM_some, hschema, houtput]
  rfl

theorem Openable.run_eq (h : a.Openable w path output) (hargs : ofList? args = some a)
    (hhelp : a.help = false) : run w args = (a.request w.directory path output).run w := by
  rw [run, h.ofArguments_eq hargs hhelp]

theorem readSchema_request {schema : String}
    (h : w.readText (resolve w.directory path) = .ok schema) :
    (a.request w.directory path output).readSchema w = .ok schema := by
  simp only [request, Request.readSchema, h, Except.mapError]

end Arguments

/-! ## Runs and the generator -/

/-- If the files that its arguments name can be opened then a run of the command ends in one of three
ways. Either it succeeds, and then the output file holds exactly the module that the generator gives for
the text of the schema, the settings with what the switches set, and the command line as its comment; all
other files are as before. Or it fails, and all files are as before. Or the module is there but its text
cannot be encoded, and then the output file is empty. If the settings can be loaded, it succeeds exactly if
the generator does and the text can be encoded. -/
theorem run_agrees_with_generate {w : Workspace} {args : List String} {a : Arguments}
    {path output schema : String} (hargs : Arguments.ofList? args = some a) (hhelp : a.help = false)
    (hopen : a.Openable w path output)
    (hschema : w.readText (resolve w.directory path) = .ok schema) :
    let r := a.request w.directory path output
    let out := resolve w.directory output
    let generated := fun (settings : Settings) =>
      (generate (settings.force a.strict a.comment).options schema
        ("Generated by " ++ line parameters r.values)).result
    let outcome := run w args
    ((outcome.exitCode = 0 ∧ ∃ settings m,
        r.readSettings w = .ok settings ∧ generated settings = .ok m ∧
        outcome.workspace.read out = .ok m.source.toUTF8 ∧
        ∀ l, l ≠ out → outcome.workspace.files.get? l = w.files.get? l) ∨
      (outcome.exitCode = 1 ∧ outcome.workspace = w) ∨
      (outcome.ending = .crashed (.file .unencodable) ∧ outcome.workspace = w.put out "")) ∧
    ∀ settings, r.readSettings w = .ok settings →
      (outcome.exitCode = 0 ↔
        ∃ m, generated settings = .ok m ∧ r.isWritable schema settings m = true) ∧
      (outcome.ending = .crashed (.file .unencodable) ↔
        ∃ m, generated settings = .ok m ∧ r.isWritable schema settings m = false) := by
  intro r out generated outcome
  have hrun : outcome = r.run w := hopen.run_eq hargs hhelp
  have hread : r.readSchema w = .ok schema := Arguments.readSchema_request hschema
  obtain ⟨w', hout⟩ := hopen.output
  rw [hrun]
  cases hsettings : r.readSettings w with
  | error crash =>
    rw [Request.run_of_unloaded hread hsettings]
    exact ⟨.inr (.inl ⟨rfl, rfl⟩), fun _ h => nomatch h⟩
  | ok settings =>
    have hresult : (r.generateWith schema settings.options).result = generated settings :=
      congrArg Run.result (r.generateWith_options schema settings)
    cases hcase : generated settings with
    | error f =>
      rw [Request.run_of_failure hread hsettings (hresult.trans hcase), Request.exitCode_endingOf]
      refine ⟨.inr (.inl ⟨rfl, rfl⟩), fun loaded h => ?_⟩
      cases h
      simp [hcase, Request.endingOf_ne_file]
    | ok m =>
      rw [Request.run_of_module hread hsettings (hresult.trans hcase) rfl hout]
      cases hwritable : r.isWritable schema settings m with
      | false =>
        refine ⟨.inr (.inr ⟨rfl, rfl⟩), fun loaded h => ?_⟩
        cases h
        simp [hcase, hwritable, Outcome.exitCode]
      | true =>
        refine ⟨.inl ⟨rfl, settings, m, rfl, hcase, Workspace.read_put_self _, ?_⟩, fun loaded h => ?_⟩
        · exact fun l hl => Workspace.get?_files_put _ hl
        · cases h
          simp [hcase, hwritable, Outcome.exitCode]

/-- Both switches are given among the paths, and the settings name a scalar that strict references
need. -/
theorem run_agrees_with_generate_switches :
    let w : Workspace := {
      directory := ["work"]
      files := .ofList [
        (["work", "s.graphql"], "type A \x7b\r\n copy: Int! b: B \x7d".toUTF8),
        (["work", "c.json"], "\x7b\"scalars\": [[\"B\", \"m.B\"]]\x7d".toUTF8),
        (["work", "out.py"], "old".toUTF8)] }
    let args := ["--strict", "-c", "c.json", "s.graphql", "--add-generation-comment", "out.py"]
    let a : Arguments :=
      { config := some "c.json", strict := true, comment := true, paths := ["s.graphql", "out.py"] }
    Arguments.ofList? args = some a ∧ a.Openable w "s.graphql" "out.py" ∧
      (run w args).exitCode = 0 ∧ ∃ settings m,
        (a.request w.directory "s.graphql" "out.py").readSettings w = .ok settings ∧
        (generate (settings.force true true).options "type A \x7b\n copy: Int! b: B \x7d"
          ("Generated by graphql_to_pydantic s.graphql out.py --config c.json --strict " ++
            "--add-generation-comment")).result = .ok m ∧
        (run w args).workspace.read ["work", "out.py"] = .ok m.source.toUTF8 := by
  intro w args a
  have hargs : Arguments.ofList? args = some a := by decide +kernel
  have hopen : a.Openable w "s.graphql" "out.py" := by
    refine ⟨rfl, by decide +kernel, by decide +kernel, ?_, ?_⟩
    · rintro c ⟨⟩
      decide +kernel
    · cases h : w.writeText (resolve w.directory "out.py") "" with
      | ok w' => exact ⟨w', rfl⟩
      | error fault =>
        have hok : (w.writeText (resolve w.directory "out.py") "").toOption.isSome = true := by
          decide +kernel
        rw [h] at hok
        exact nomatch hok
  have hdone : (run w args).exitCode = 0 := by decide +kernel
  have hschema : w.readText (resolve w.directory "s.graphql") =
      .ok "type A \x7b\n copy: Int! b: B \x7d" := eq_ok_of_toOption (by decide +kernel)
  obtain ⟨hends, -⟩ := run_agrees_with_generate hargs rfl hopen hschema
  rcases hends with ⟨-, settings, m, hsettings, hm, hread, -⟩ | ⟨hfailed, -⟩ | ⟨hcrashed, -⟩
  · refine ⟨hargs, hopen, hdone, settings, m, hsettings, ?_, hread⟩
    have hline : line parameters (a.request w.directory "s.graphql" "out.py").values =
        "graphql_to_pydantic s.graphql out.py --config c.json --strict --add-generation-comment" := by
      decide +kernel
    rw [hline] at hm
    exact hm
  · exact nomatch hdone.symm.trans hfailed
  · rw [Outcome.exitCode, hcrashed] at hdone
    exact nomatch hdone

end Command

end SchemaModels
