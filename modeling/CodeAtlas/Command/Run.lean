import CodeAtlas.Analysis
import CodeAtlas.Command.Basic
import CodeAtlas.Report
import CodeAtlas.Settings.File
import CodeAtlas.Table.Basic

/-!
# Running commands

A command reads and writes files of a disk and says what it did, on the output and, where
something is wrong, among the errors. The command line goes before the configuration file, and
that before what is taken if nothing is said.
-/

namespace CodeAtlas

/-- A line of the output. -/
inductive Line where
  | text (s : String)
  /-- Says how long the run took. -/
  | elapsed
deriving DecidableEq, Repr

/-- What a run comes to. -/
structure Outcome where
  disk : Disk
  output : List Line := []
  errors : List String := []
  exitCode : Nat := 0

namespace Command

/-! ### Plans -/

/-- What an analysis does, once the configuration file has been read. -/
structure Plan where
  root : String
  outDir : String
  project : Option String
  exclude : List String
  pretty : Bool
deriving DecidableEq, Repr

/-- What an analysis does by its request and the settings of the configuration file. -/
def plan (request : AnalyzeRequest) (settings : Settings) : Plan where
  root := (request.path <|> settings.path).getD "."
  outDir := (request.out <|> settings.outDir).getD Settings.defaultOutDir
  project := request.project <|> settings.project
  exclude := settings.exclude ++ request.exclude
  pretty := request.pretty || settings.pretty.getD false

/-! ### Documents -/

/-- The file of the tree. -/
def treeFile : String := "component_tree.json"

/-- The file of the relations. -/
def relationsFile : String := "relations.json"

/-- Does one thing after another to a disk, up to the first that fails. -/
def inOrder (disk : Disk) : List (Disk → Except FileError Disk) → Disk × Option FileError
  | [] => (disk, none)
  | act :: rest =>
    match act disk with
    | .ok disk => inOrder disk rest
    | .error e => (disk, some e)

/-- Writes the documents of a report into a directory. -/
def writeDocuments (disk : Disk) (directory : String) (documents : Report.Documents) :
    Disk × Option FileError :=
  inOrder disk [
    (·.makeDirectory directory),
    (·.write (Path.join directory treeFile) documents.tree.toUTF8),
    (·.write (Path.join directory relationsFile) documents.relations.toUTF8)]

/-! ### Messages -/

/-- What the end of a run with a failure says. A cause of its own is repeated. -/
def failureLines (f : Failure) : List String :=
  ("Error: " ++ f.message) ::
    match f with
    | .unreadable cause => ["", "Caused by:", "    " ++ cause.message]
    | _ => []

/-- The warnings on an analysis. -/
def warnings (a : Analysis) (report : Report) : List String :=
  let empty :=
    if report.tree.isNone then
      ["⚠️ No Python declarations found; the component tree is empty"]
    else []
  let unresolved (label : String) (s : Settled) :=
    if s.unresolved = 0 then []
    else [s!"⚠️ {s.unresolved} unresolved after resolving {label}"]
  empty ++ unresolved "export lists" a.exports ++ unresolved "imports" a.imports

/-- The rows of the summary. -/
def summaryRows (a : Analysis) : List Row :=
  let stats := a.ns.stats
  [⟨"Packages", toString stats.packages⟩,
   ⟨"Components", toString stats.components⟩,
   ⟨"Classes", toString stats.classes⟩,
   ⟨"Functions", toString stats.functions⟩,
   ⟨"Dependencies", toString stats.dependencies⟩,
   ⟨"Associations", toString stats.associations⟩,
   ⟨"Condensed", toString stats.condensed⟩,
   ⟨"Export passes", toString a.exports.iterations⟩,
   ⟨"Import passes", toString a.imports.iterations⟩]

/-- What the output says about an analysis. -/
def summary (a : Analysis) (report : Report) (directory : String) : List Line :=
  let files := a.ns.sources.length
  let entities := a.ns.stats.entities
  let relations := report.relations.length
  [.text "", .text "━Summary━", .text (Table.render (summaryRows a)),
   .text s!"  📄 {files}  📦 {entities}  🔗 {relations}",
   .text s!"ℹ️ Output: {directory}", .elapsed, .text "✅ Analysis complete"]

/-! ### Commands -/

/-- Runs an analysis by its plan. -/
def runPlan (disk : Disk) (plan : Plan) : Outcome :=
  let started : List Line := [.text s!"🚀 Analyzing {plan.root}"]
  match Project.locate disk plan.root plan.project plan.exclude >>= Project.analyze with
  | .error f => { disk, output := started, errors := failureLines f, exitCode := 1 }
  | .ok a =>
    let report := Report.ofNamespace a.ns
    let directory := Path.join plan.outDir a.ns.project
    match writeDocuments disk directory (report.documents plan.pretty) with
    | (disk, some e) =>
      { disk, output := started, errors := failureLines (.unreadable e), exitCode := 1 }
    | (disk, none) =>
      { disk, output := started ++ summary a report directory, errors := warnings a report }

/-- Runs an analysis. -/
def runAnalyze (disk : Disk) (request : AnalyzeRequest) : Outcome :=
  match Settings.load disk (request.config.getD Settings.defaultFile) with
  | .error e => { disk, errors := ["Error: " ++ e.message], exitCode := 1 }
  | .ok settings => runPlan disk (plan request (settings.getD {}))

/-- Writes the configuration file to start with. -/
def runInit (disk : Disk) (request : InitRequest) : Outcome :=
  let file := request.config.getD Settings.defaultFile
  match Settings.starter.save disk file request.force with
  | .error e =>
    { disk, errors := ["❌ " ++ e.message, "Error: " ++ e.message], exitCode := 1 }
  | .ok disk => { disk, output := [.text s!"✅ Wrote {file}"] }

/-- Runs a command. -/
def run (disk : Disk) : Command → Outcome
  | .analyze request => runAnalyze disk request
  | .init request => runInit disk request

/-- Runs a command line. -/
def runWords (disk : Disk) (words : List String) : Outcome :=
  match ofWords words with
  | .ok command => command.run disk
  | .error (.text s) => { disk, output := [.text s] }
  | .error .misuse =>
    { disk, errors := ["Usage: " ++ programManual.usage], exitCode := 2 }

end Command

end CodeAtlas
