import Refactor.CommandLine.Options
import Refactor.Number.Decimal
import Refactor.Report.Render
import Refactor.Text.Quoted
import Refactor.World
import Refactor.World.Messages

/-!
# What a run tells on its way

Notices on what is read, and from where. They never change what is found.

- `directoryNotices`: reading the sources of a directory.
- `binaryNotices`: leaving out the binary files of a commit.
- `readingNotices`: what became of each source.
- `sourceNotices`: all of these for what a command line compares, in the order of the run.
-/

namespace Refactor.Program

open CommandLine Messages

/-! ## Parts of the program -/

/-- The name of the program, and of the part of it that runs the others. -/
def programName : String := "polyref"

/-- The part that reads sources. -/
def readingPart : String := programName ++ "_core::reader"

/-- The part that looks into repositories. -/
def repositoryPart : String := programName ++ "_core::git"

/-- The part that finds the classes and operations of a file. -/
def extractionPart (language : Language) : String :=
  programName ++ "_core::visitor::" ++
    match language with
    | .python => "python"
    | .javaScript => "javascript"
    | .cpp => "cpp"

/-! ## Settings and reports -/

/-- A path between double quotes. Single quotes stand behind a backslash, too. -/
def quotedPath (path : String) : String :=
  String.ofList ((Text.quoted path).toList.flatMap fun c => if c = '\'' then ['\\', c] else [c])

/-- The fields of a record in braces, behind its name. -/
def record (name : String) (fields : List (String × String)) : String :=
  name ++ " \x7b " ++ Text.join ", " (fields.map fun (field, value) => field ++ ": " ++ value) ++
    " \x7d"

def sourceText : Source → String
  | .directories before after =>
    record "Directories" [("before", quotedPath before), ("after", quotedPath after)]
  | .commit repo hash changedOnly =>
    record "Commit" [("repo_path", quotedPath repo), ("commit_hash", Text.quoted hash),
      ("changed_only", toString changedOnly)]
  | .history repo revision limit changedOnly =>
    record "History" [("repo_path", quotedPath repo), ("rev", Text.quoted revision),
      ("limit", toString limit), ("changed_only", toString changedOnly)]

def formatText : Report.Format → String
  | .plainText => "PlainText"
  | .markdown => "Markdown"
  | .html => "Html"

/-- The settings of a run that tells what it does. -/
def settingsNotices (o : Options) : List Notice :=
  if o.verbose then
    [⟨.info, programName, "开始分析"⟩,
      ⟨.debug, programName, "配置: source=" ++ sourceText o.source ++ ", format=" ++
        formatText o.format ++ ", threshold=" ++ o.diff.threshold.shortest⟩]
  else []

/-- A report that was written. -/
def reportNotice (path : String) (r : Report) : Notice :=
  ⟨.info, programName, s!"报告已写入 {path} ({r.count} 个重构, {r.size} 字节)"⟩

/-! ## Directories -/

/-- A path as it is told for something below a directory. -/
def pathBelow (directory path : String) : String :=
  if directory.toList.getLast? = some '/' then directory ++ path else directory ++ "/" ++ path

/-- A text by whose order directories are walked: a directory with all that is in it comes where its
name comes among its neighbours. -/
def walkKey (path : String) : String :=
  String.ofList (path.toList.map fun c => if c = '/' then '\x00' else c)

/-- The paths of sources in a directory that are no texts. -/
def unreadable (entries : List Read.DirectoryEntry) : List String :=
  let found := entries.filter fun e =>
    match e.content with
    | .file bytes =>
      !e.isHidden && (Language.ofPath? e.path).isSome && (Text.decode? bytes).isNone
    | _ => false
  (TextMap.ofList (found.map fun e => (walkKey e.path, e.path))).entries.map Prod.snd

/-- Reading the sources of a directory. -/
def directoryNotices (w : World) (path : String) : List Notice :=
  let entries := ((w.place? path).map w.below).getD []
  (unreadable entries).map (fun file => ⟨.warn, readingPart,
      "无法读取文件 " ++ pathBelow path file ++ ": stream did not contain valid UTF-8"⟩) ++
    [⟨.debug, readingPart, s!"从 {path} 加载了 {(Read.directorySources entries).size} 个源文件"⟩]

/-! ## Commits -/

/-- How many parts a path has. -/
def depth (path : String) : Nat :=
  (Path.parts path.toList).length

/-- The paths of binary files in a commit, those in fewer directories first. -/
def binaries (c : Repository.Commit) : List String :=
  let found := c.files.filter fun e =>
    (e.mode == .blob || e.mode == .executable) && (Language.ofPath? e.path).isSome &&
      Repository.isBinary e.bytes
  let paths := (TextMap.ofList (found.map fun e => (e.path, ()))).keys
  (List.range (paths.foldl (fun n path => max n (depth path)) 0 + 1)).flatMap fun n =>
    paths.filter (depth · = n)

/-- Leaving out the binary files of a commit. -/
def binaryNotices (r : Repository) (hash : String) : List Notice :=
  match r.findCommit hash with
  | .ok c => (binaries c).map fun path => ⟨.warn, repositoryPart, "跳过二进制文件: " ++ path⟩
  | .error _ => []

/-! ## Sources -/

/-- What became of a source. -/
def fileNotices (path : String) : Read.FileResult → List Notice
  | .built language model =>
    let classes := model.classes.length
    let operations := model.operations.length
    let name := language.displayName
    [⟨.debug, extractionPart language,
        s!"{name} 文件 {path} 提取了 {classes} 个类和 {operations} 个独立函数"⟩,
      ⟨.debug, readingPart, s!"成功处理文件: {path} ({name}), 耗时: 0ns"⟩]
  | .skipped _ => [⟨.warn, readingPart, "跳过不支持的文件: " ++ path⟩]
  | .failed _ e => [⟨.warn, readingPart, "处理文件失败: " ++ path ++ ", 错误: " ++ e.message⟩]

/-- What became of each source. No time is measured. -/
def readingNotices (w : World) (files : Read.SourceFiles) : List Notice :=
  files.entries.flatMap fun (path, source) => fileNotices path (Read.readFile w.parse path source)

/-! ## Comparisons -/

/-- Comparing a commit with the one before. -/
def commitNotices (w : World) (r : Repository) (found : Repository.Snapshots) : List Notice :=
  binaryNotices r found.commit ++ found.parent.toList.flatMap (binaryNotices r) ++
    readingNotices w found.before ++ readingNotices w found.after

/-- Comparing commits, up to the first that cannot be read. -/
def historyNotices (w : World) (r : Repository) (changedOnly : Bool) : List String → List Notice
  | [] => []
  | hash :: rest =>
    match r.snapshots hash changedOnly with
    | .ok found => commitNotices w r found ++ historyNotices w r changedOnly rest
    | .error _ => []

/-- What is told on the way to a report. -/
def sourceNotices (w : World) : Source → List Notice
  | .directories before after =>
    ⟨.info, programName, s!"比较目录 {before} 与 {after}"⟩ ::
      (directoryNotices w before ++ readingNotices w (w.sourcesIn before) ++
        directoryNotices w after ++ readingNotices w (w.sourcesIn after))
  | .commit repo hash changedOnly =>
    match w.repository repo with
    | .ok r => historyNotices w r changedOnly [hash]
    | .error _ => []
  | .history repo revision limit changedOnly =>
    match w.repository repo with
    | .error _ => []
    | .ok r =>
      match r.history revision limit with
      | .error _ => []
      | .ok hashes =>
        ⟨.debug, repositoryPart, s!"从 {revision} 开始的第一父提交链: {hashes.length} 个提交"⟩ ::
          ⟨.info, programName, s!"分析 {hashes.length} 个提交"⟩ ::
          historyNotices w r changedOnly hashes

end Refactor.Program
