import TexToc.DocCache
import TexToc.Include
import TexToc.Outline.Config
import TexToc.Outline.Splice
import TexToc.Markup.Render
import TexToc.Text.Case
import TexToc.Text.LineIndex

/-!
Gathering the entries of the files of a run.

Each file read in a run gets a forest: its entries in the order of the text, an entry nested
under another when it stands inside the other's environment or group. A file is registered
before it is walked, so a file that includes itself, directly or through others, is walked
once per run, and the forests keep the order in which files were first reached.

What becomes an entry:

* a sectioning command, labelled by its short title or else its title;
* a command listed in the settings, labelled `#name: argument`;
* an inclusion that names a file: the file path when included files are merged (and the
  file is then gathered at once), else the path as written;
* a beamer frame, labelled by its title argument or else its first `\frametitle`;
* a float shown by the settings, labelled by its first `\caption`;
* a documentation block (`macro` or `environment`), labelled by its first group;
* any other environment, or math environment, that the settings show.

Child documents named in chunk headers become entries where the walk first reaches a node
that starts on or after the header's line, just before that node's own entry.

A document is taken from the unsaved texts first; otherwise from the document cache, which
is polled while its load has not started, and forced after enough polls.

A path that does not resolve stops the run where it is met. The failure comes with the run as
it stood then, so that what the cache read and marked before it is kept.

* `gather`: the forests of a run, from its main file.
-/

namespace TexToc.Outline

open Markup Text

/-- The commands that include a file from the directory of the including file, the root
file or the search directories. -/
def inputCommands : List String :=
  ["input", "InputIfFileExists", "include", "SweaveInput", "subfile", "loadglsentries",
    "markdownInput"]

/-- The commands that include a file from a given directory, as it stands or below the root
file's directory. -/
def importCommands : List String := ["import", "inputfrom", "includefrom"]

/-- The commands that include a file from a directory below the including file's. -/
def subImportCommands : List String := ["subimport", "subinputfrom", "subincludefrom"]

/-- The name under which a float environment is shown. -/
def floatName? : String → Option String
  | "figure" | "figure*" => some "figure"
  | "table" | "table*" => some "table"
  | _ => none

/-- The entry name of a child document named in a chunk header. -/
def childChunkName : String := "RnwChild"

/-- What stays fixed while the files of a run are gathered. -/
structure Gathering where
  /-- The files, the working directory and the grammar. -/
  reading : Reading
  /-- The configuration of the run. -/
  cfg : Config
  /-- The root file, whose directory is searched for included files. -/
  rootFile : String
  /-- Texts of files that are being edited, which take the place of the files. -/
  unsaved : List (String × String)
  /-- How often a document is polled before its load is forced. -/
  attempts : Nat

/-- The progress of a run: the forests gathered so far and the document cache. -/
structure Run where
  forests : Forests
  cache : DocCache

/-- The progress of a walk through one file: the run, and the child documents not yet
placed, earliest first. -/
structure WalkState where
  run : Run
  pending : List ChildChunk

/-- Where a node was read from in its file: offset, first and last line, counted from 0. -/
structure Place where
  offset : Nat
  lineStart : Nat
  lineEnd : Nat

/-- The place of a node; a node not read from the text is placed at the start. -/
def placeOf (idx : LineIndex) (n : Node) : Place :=
  match n.span? with
  | none => ⟨0, 0, 0⟩
  | some s => ⟨s.start, idx.lineOf s.start - 1, idx.lineOf s.stop - 1⟩

/-- An entry without nested entries at a place of a file. -/
def Place.entry (pl : Place) (file : String) (kind : Kind) (name label : String) : Entry :=
  ⟨kind, name, label, pl.offset, pl.lineStart, pl.lineEnd, file, []⟩

/-! ## Arguments -/

/-- The content of the last optional argument that is not empty. -/
def shortTitle (args : List Arg) : List Node :=
  match args.reverse.find? (fun a => a.openMark == "[" && !a.content.isEmpty) with
  | some a => a.content
  | none => []

/-- The content of the last (or, with `last` false, the first) mandatory argument: one in
braces, or a bare one that is neither empty nor a star. -/
def mandatoryContent (args : List Arg) (last : Bool) : List Node :=
  let candidates := args.filter fun a =>
    a.openMark == "\x7b" || (a.openMark == "" && !a.content.isEmpty && !a.isStar)
  let pick := if last then candidates.getLast? else candidates.head?
  (pick.map Arg.content).getD []

/-- A command is starred when its first argument is a star. -/
def isStarred (args : List Arg) : Bool :=
  match args with
  | a :: _ => a.isStar
  | [] => false

/-- The arguments of the first command of a name among nodes, not looking inside them. -/
def findControl (ns : List Node) (name : String) : Option (List Arg) :=
  ns.findSome? fun
    | .control n args _ => if n = name then some args else none
    | _ => none

/-! ## Entries of nodes -/

section Entries

variable (g : Gathering) (file : String)

/-- The label of an environment entry: the capitalized name, and the caption after a colon
when captions are shown and there is one. -/
def environmentLabel (name caption : String) : String :=
  let label := capitalize name
  if g.cfg.showCaptions && !caption.isEmpty then label ++ ": " ++ caption else label

/-- The entry of an environment, if it has one. -/
def environmentEntry (pl : Place) (name : String) (args : List Arg) (body : List Node) :
    Option Entry :=
  let shown (name caption : String) := pl.entry file .environment name (environmentLabel g name caption)
  if name = "frame" then
    let caption := renderNodes (mandatoryContent args false)
    let caption :=
      if !caption.isEmpty then caption
      else match findControl body "frametitle" with
        | some targs => renderNodes (mandatoryContent targs true)
        | none => caption
    some (shown name caption)
  else match floatName? name with
  | some f =>
    if g.cfg.environments.contains f then
      let caption := match findControl body "caption" with
        | some cargs => renderNodes (mandatoryContent cargs true)
        | none => ""
      some (shown f caption)
    else rest
  | none => rest
where
  /-- The entry of an environment that is neither a frame nor a shown float. -/
  rest : Option Entry :=
    if name = "macro" || name = "environment" then
      let caption := match body with
        | .group gbody _ :: _ => renderNodes gbody
        | _ => ""
      some (pl.entry file .environment name (environmentLabel g name caption))
    else if g.cfg.environments.contains name then
      some (pl.entry file .environment name (capitalize name))
    else none

/-- The file an inclusion command names, tried in the directories its kind of command
searches, with the path as written; nothing for a command that includes no file. -/
def includedFile (name : String) (args : List Arg) :
    Except Failure (Option (String × String)) :=
  let disk := g.reading.disk
  let cwd := g.reading.cwd
  let rootDir := Path.parent g.rootFile
  let found (raw : String) (r : Except Failure (Option String)) :=
    r.map (Option.map fun f => (f, raw))
  if inputCommands.contains name then
    let raw := renderNodes (argContent args 0)
    found raw (resolveInclude disk cwd (Path.parent file :: rootDir :: g.cfg.texDirs) raw ".tex")
  else if importCommands.contains name then
    let dir := renderNodes (argContent args 0)
    let raw := renderNodes (argContent args 1)
    found raw (resolveInclude disk cwd [dir, Path.join rootDir dir] raw ".tex")
  else if subImportCommands.contains name then
    let dir := renderNodes (argContent args 0)
    let raw := renderNodes (argContent args 1)
    found raw (resolveInclude disk cwd [Path.parent file] (Path.join dir raw) ".tex")
  else .ok none

/-- The entry of a command, with the run after gathering the file it includes; `sub`
gathers an included file. -/
def commandEntry (sub : String → Run → Except (Failure × Run) Run) (pl : Place) (name : String)
    (args : List Arg) (run : Run) : Except (Failure × Run) (Option Entry × Run) :=
  if (g.cfg.rank name).isSome then
    let title := shortTitle args
    let title := if title.isEmpty then mandatoryContent args true else title
    let kind := if isStarred args then Kind.sectionStarred else .section
    .ok (some (pl.entry file kind name (renderNodes title)), run)
  else if g.cfg.commands.contains name then
    let argument := renderNodes (mandatoryContent args false)
    let label := "#" ++ name ++ (if argument.isEmpty then "" else ": " ++ argument)
    .ok (some (pl.entry file .command name label), run)
  else
    match includedFile g file name args with
    | .error e => .error (e, run)
    | .ok none => .ok (none, run)
    | .ok (some (sf, raw)) =>
      let entry := pl.entry file .included name (if g.cfg.mergeIncluded then sf else raw)
      if g.cfg.mergeIncluded then (sub sf run).map fun run => (some entry, run)
      else .ok (some entry, run)

/-- The entry of a node, with the run after gathering what it includes. -/
def nodeEntry (sub : String → Run → Except (Failure × Run) Run) (pl : Place) (n : Node) (run : Run) :
    Except (Failure × Run) (Option Entry × Run) :=
  match n with
  | .control name args _ => commandEntry g file sub pl name args run
  | .env name args body _ => .ok (environmentEntry g file pl name args body, run)
  | .mathEnv name _ _ _ =>
    if g.cfg.environments.contains name then
      .ok (some (pl.entry file .environment name (capitalize name)), run)
    else .ok (none, run)
  | _ => .ok (none, run)

/-- Place the child documents whose headers stand on or before `line`, as entries at `pl`,
gathering each when included files are merged; gives the entries, the documents left and
the run. -/
def placeChunks (sub : String → Run → Except (Failure × Run) Run) (pl : Place) :
    List ChildChunk → Run → Except (Failure × Run) (List Entry × List ChildChunk × Run)
  | [], run => .ok ([], [], run)
  | c :: rest, run =>
    if c.line ≤ pl.lineStart then
      let entry : Entry := ⟨.included, childChunkName, if g.cfg.mergeIncluded then c.file else c.path,
        pl.offset - 1, pl.lineStart, pl.lineEnd, file, []⟩
      let gathered := if g.cfg.mergeIncluded then sub c.file run else .ok run
      match gathered with
      | .error e => .error e
      | .ok run =>
        match placeChunks sub pl rest run with
        | .error e => .error e
        | .ok (es, left, run) => .ok (entry :: es, left, run)
    else .ok ([], c :: rest, run)

/-- The entries of a node, given how the entries inside it are walked: child documents due
before it, then its own entry with the inner entries nested under it, or those entries
alone. -/
def walkWith (sub : String → Run → Except (Failure × Run) Run) (idx : LineIndex) (n : Node)
    (inner : WalkState → Except (Failure × Run) (List Entry × WalkState)) (st : WalkState) :
    Except (Failure × Run) (List Entry × WalkState) :=
  let pl := placeOf idx n
  match nodeEntry g file sub pl n st.run with
  | .error e => .error e
  | .ok (own, run) =>
    match placeChunks g file sub pl st.pending run with
    | .error e => .error e
    | .ok (chunks, pending, run) =>
      match inner ⟨run, pending⟩ with
      | .error e => .error e
      | .ok (es, st) =>
        match own with
        | some e => .ok (chunks ++ [e.withChildren es], st)
        | none => .ok (chunks ++ es, st)

mutual

/-- The entries of a node and of the nodes inside it; the walk descends into the node's
body. -/
def walkNode (sub : String → Run → Except (Failure × Run) Run) (idx : LineIndex) (n : Node)
    (st : WalkState) : Except (Failure × Run) (List Entry × WalkState) :=
  walkWith g file sub idx n (fun st => walkNodes sub idx n.body st) st
termination_by 2 * sizeOf n + 1
decreasing_by have := Node.sizeOf_body_le n; omega

/-- The entries of a sequence of nodes, one after another. -/
def walkNodes (sub : String → Run → Except (Failure × Run) Run) (idx : LineIndex) :
    List Node → WalkState → Except (Failure × Run) (List Entry × WalkState)
  | [], st => .ok ([], st)
  | n :: ns, st =>
    match walkNode sub idx n st with
    | .error e => .error e
    | .ok (es, st) =>
      match walkNodes sub idx ns st with
      | .error e => .error e
      | .ok (more, st) => .ok (es ++ more, st)
termination_by ns => 2 * sizeOf ns
decreasing_by
  all_goals simp only [List.cons.sizeOf_spec]
  all_goals omega

end

end Entries

/-! ## Documents -/

/-- Poll the cache for a path at most `left` more times: stop as soon as its load is pending
or its document is there; after the last poll, force a read (a failed read is let go). -/
def pollDocument (g : Gathering) (p : String) : Nat → DocCache → DocCache
  | 0, c => c
  | left + 1, c =>
    let (pending, c) := c.hasPending p
    if pending || (c.get p).isSome then c
    else
      let c := c.yieldOnce g.reading
      match left with
      | 0 => (c.forceRefresh g.reading p).2
      | _ => pollDocument g p left c

/-- The document of a path: its unsaved text if it has one (nothing if that text is nested
too deeply), else the cached document after polling and waiting for its load. -/
def loadDocument (g : Gathering) (p : String) (c : DocCache) : Option Document × DocCache :=
  match g.unsaved.lookup p with
  | some text =>
    match parse g.reading.grammar text with
    | .ok nodes => (some ⟨text, nodes⟩, c)
    | .error _ => (none, c)
  | none =>
    let c := pollDocument g p (max g.attempts 1) c
    let c := c.waitPending g.reading p
    (c.get p, c)

/-- The forest of a file once walked: the run with the file's forest put in its place. -/
def Run.setForest (run : Run) (p : String) (es : List Entry) : Run :=
  { run with forests := run.forests.map fun (f, old) => if f = p then (f, es) else (f, old) }

/-- Gather a file and what it includes, `depth` files deep at most: nothing for a file
already registered; else register it, load it and walk it. Every level gathers a file not
registered before, so a depth beyond the number of files is never reached. -/
def gatherFile (g : Gathering) : Nat → String → Run → Except (Failure × Run) Run
  | 0, _, run => .ok run
  | depth + 1, p, run =>
    if run.forests.any (·.1 == p) then .ok run
    else
      let run := { run with forests := run.forests ++ [(p, [])] }
      let (doc?, cache) := loadDocument g p run.cache
      let run := { run with cache }
      match doc? with
      | none => .ok run
      | some doc =>
        let dirs := childSearchDirs p g.rootFile g.cfg.texDirs
        match childChunks g.reading.disk g.reading.cwd dirs doc.content with
        | .error e => .error (e, run)
        | .ok chunks =>
          let idx := LineIndex.ofChars doc.content.toList.toArray
          match walkNodes g p (gatherFile g depth) idx doc.nodes ⟨run, chunks⟩ with
          | .error e => .error e
          | .ok (es, st) => .ok (st.run.setForest p es)

/-- Gather the files of a run from `p`, into the forests and cache of `run`. -/
def gather (g : Gathering) (p : String) (run : Run) : Except (Failure × Run) Run :=
  gatherFile g (g.reading.disk.files.length + g.unsaved.length + 2) p run

end TexToc.Outline
