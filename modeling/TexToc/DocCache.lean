import TexToc.Disk
import TexToc.Markup.Parser
import TexToc.Failure

/-!
A cache of parsed documents.

The cache keeps the documents it has read, by path, and the paths whose reading failed.
Asking whether a path is pending starts a load for a path that is neither cached, failed
nor loading. Loads run cooperatively: a load is a task that reads its file, waits for the
read to be handed over, and then parses and stores the document (or marks the path failed).
Tasks run only while the caller waits, for a load or for a forced read.

Waiting runs the ready steps in the order they were scheduled: each step of a task
schedules the next, the end of a task wakes a caller waiting for it, and the caller itself
resumes when its own wake-up comes round. The caller's forced read works the same way: it
reads at once, then waits for the hand-over before it parses.

The register of pending loads maps a path to its latest task. A task that ends removes the
path from the register, whichever task it names; dropping a path from the cache removes it
from the register too, while its task runs on.

* `DocCache.get`, `hasPending`, `waitPending`, `forceRefresh`, `invalidate`: the
  operations.
-/

namespace TexToc

open Markup

/-- A document: its text and the markup read from it. -/
structure Document where
  content : String
  nodes : List Node

/-- Where a load stands: scheduled, read with the text it found, or handed over. -/
inductive LoadStage where
  | scheduled
  | read (text : Option String)
  | handedOver (text : Option String)

/-- A load task: its number, the path it loads and its stage. -/
structure LoadTask where
  id : Nat
  path : String
  stage : LoadStage

/-- A step ready to run: the next step of a task, the hand-over of the caller's own read, or
the caller's wake-up. -/
inductive ReadyStep where
  | advance (id : Nat)
  | handOver
  | wake

/-- What reading and parsing a file need: the tree of files, the working directory and the
grammar. -/
structure Reading where
  disk : Disk
  cwd : String
  grammar : Grammar

/-- The cache of parsed documents. -/
structure DocCache where
  docs : List (String × Document)
  failed : List String
  register : List (String × Nat)
  tasks : List LoadTask
  ready : List ReadyStep
  nextId : Nat
  waitingFor : Option Nat

namespace DocCache

/-- The empty cache. -/
def empty : DocCache := ⟨[], [], [], [], [], 0, none⟩

/-- The cached document of a path. -/
def get (c : DocCache) (p : String) : Option Document :=
  c.docs.lookup p

/-- The cache with a document stored for a path. -/
def store (c : DocCache) (p : String) (d : Document) : DocCache :=
  { c with docs := (c.docs.filter (·.1 != p)) ++ [(p, d)] }

/-- The cache with a path marked failed. -/
def markFailed (c : DocCache) (p : String) : DocCache :=
  if c.failed.contains p then c else { c with failed := c.failed ++ [p] }

/-- Parse the text read for a path: the document, or nothing if it could not be read or is
nested too deeply. -/
def parseRead (r : Reading) (text : Option String) : Option Document :=
  match text with
  | none => none
  | some t =>
    match parse r.grammar t with
    | .ok nodes => some ⟨t, nodes⟩
    | .error _ => none

/-- Run one ready step of a task. -/
def advance (r : Reading) (c : DocCache) (id : Nat) : DocCache :=
  match c.tasks.find? (·.id == id) with
  | none => c
  | some t =>
    let others := c.tasks.filter (·.id != id)
    match t.stage with
    | .scheduled =>
      { c with tasks := others ++ [{ t with stage := .read (r.disk.readText? r.cwd t.path) }],
               ready := c.ready ++ [.advance id] }
    | .read text =>
      { c with tasks := others ++ [{ t with stage := .handedOver text }],
               ready := c.ready ++ [.advance id] }
    | .handedOver text =>
      let c := { c with tasks := others }
      let c := match parseRead r text with
        | some d => c.store t.path d
        | none => c.markFailed t.path
      let c := { c with register := c.register.filter (·.1 != t.path) }
      if c.waitingFor = some id then { c with ready := c.ready ++ [.wake], waitingFor := none }
      else c

/-- The number of ready steps that can still run: three per task at most, and two for the
caller's own read. -/
def stepBound (c : DocCache) : Nat :=
  3 * c.tasks.length + c.ready.length + 3

/-- Run ready steps in order until the caller's wake-up comes round. -/
def runUntilWake (r : Reading) : Nat → DocCache → DocCache
  | 0, c => c
  | fuel + 1, c =>
    match c.ready with
    | [] => c
    | .wake :: rest => { c with ready := rest }
    | .handOver :: rest => runUntilWake r fuel { c with ready := rest ++ [.wake] }
    | .advance id :: rest => runUntilWake r fuel (advance r { c with ready := rest } id)

/-- Let the ready steps run until the caller resumes. -/
def yieldOnce (r : Reading) (c : DocCache) : DocCache :=
  runUntilWake r (c.stepBound + 1) { c with ready := c.ready ++ [.wake] }

/-- Whether a load of a path is pending; starts one for a path that is neither cached,
failed nor loading. -/
def hasPending (c : DocCache) (p : String) : Bool × DocCache :=
  if (c.register.lookup p).isSome then (true, c)
  else if (c.docs.lookup p).isSome || c.failed.contains p then (false, c)
  else
    let id := c.nextId
    (true, { c with register := (c.register.filter (·.1 != p)) ++ [(p, id)],
                    tasks := c.tasks ++ [⟨id, p, .scheduled⟩],
                    ready := c.ready ++ [.advance id],
                    nextId := id + 1 })

/-- Wait for the pending load of a path, if there is one. -/
def waitPending (r : Reading) (c : DocCache) (p : String) : DocCache :=
  match c.register.lookup p with
  | none => c
  | some id => runUntilWake r (c.stepBound + 1) { c with waitingFor := some id }

/-- Read and parse a path now, after dropping its failure mark; a failure leaves the cache
as the waiting left it. -/
def forceRefresh (r : Reading) (c : DocCache) (p : String) : Except Failure Unit × DocCache :=
  let c := { c with failed := c.failed.filter (· != p) }
  let text := r.disk.readText? r.cwd p
  let c := runUntilWake r (c.stepBound + 1) { c with ready := c.ready ++ [.handOver] }
  match text with
  | none => (.error (.unreadable p), c)
  | some t =>
    match parse r.grammar t with
    | .ok nodes => (.ok (), c.store p ⟨t, nodes⟩)
    | .error _ => (.error (.unparsable p), c)

/-- Drop a path's document, its pending load and its failure mark. -/
def invalidate (c : DocCache) (p : String) : DocCache :=
  { c with docs := c.docs.filter (·.1 != p), register := c.register.filter (·.1 != p),
           failed := c.failed.filter (· != p) }

end DocCache

end TexToc
