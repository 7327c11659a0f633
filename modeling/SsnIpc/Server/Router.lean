import SsnIpc.Frame.Header
import SsnIpc.ListMacros

/-!
# The method table of the server

`ssn_server_add_method`, `ssn_server_remove_method` and `ssn_server_cmd_match` of
`src/ssn_server.c`, over a heap of `ssn_server_cmd_t` nodes. Rules for exact urls hang in a hash
table of lists, rules for subtrees in a FIFO with a tail pointer, and `/` is a single default
rule. Every operation may fault (`none`) by touching a freed node.

`RefRouter` is the table as a user sees it: a default, the subtree rules in order of registration
and the exact rules newest first. `Server.RouterRefinement` compares the two.
-/

namespace Ssn

open ByteMem Dll

/-! ## The model -/

/-- `ssn_server_cmd_t` without its links. The handler `onrpc` stands for the callback and its
argument. -/
structure Cmd (β : Type*) where
  url : Bytes
  onrpc : β
  deriving DecidableEq

/-- The places a rule can hang: `server->def_cmd`, `server->prefix_h`, `server->cmds[k]`. -/
inductive Slot
  | deflt
  | fifo
  | bucket (k : Nat)
  deriving DecidableEq, Repr

/-- The method table of `ssn_server_t`. -/
structure Router (β : Type*) where
  heap : Heap (Cmd β)
  header : Slot → Option Nat
  prefixT : Option Nat

/-- A byte of a url as a signed `char`. -/
def charVal (b : UInt8) : Int := if b.toNat < 128 then b.toNat else b.toNat - 256

def urlSum : Bytes → Int
  | [] => 0
  | [b] => charVal b
  | b :: _ :: bs => charVal b + urlSum bs

/-- `ssn_server_url_hash`. -/
def urlHash (url : Bytes) : Nat := (urlSum url % 32).toNat

/-- The check both calls make on their url. -/
def methodUrlOk (url : Bytes) : Bool := url.head? = some slash

/-- `/` alone is the default rule. -/
def isDef (url : Bytes) : Bool := url.length = 1

/-- A trailing `/` makes a rule for a subtree. -/
def isSubtree (url : Bytes) : Bool := !isDef url ∧ url.getLast? = some slash

/-- The length of the path of a rule, without the trailing `/` of a subtree rule. -/
def pathLen (url : Bytes) : Nat := if isSubtree url then url.length - 1 else url.length

namespace Router

variable {β : Type*}

/-- The table of a new server. -/
def init : Router β := ⟨Heap.empty, fun _ => none, none⟩

/-- Free a node unless the pointer is `NULL`. -/
def freeOpt (heap : Heap (Cmd β)) (p : Option Nat) : Option (Heap (Cmd β)) :=
  p.elim (some heap) heap.free

/-- `ssn_server_add_method`. -/
def addMethod (r : Router β) (url : Bytes) (callback : β) : Option (Router β × Bool) :=
  if !methodUrlOk url then some (r, false)
  else
    let (heap, cmd) := r.heap.alloc ⟨url.take (pathLen url), callback⟩
    if isDef url then
      let needFree := r.header .deflt
      (freeOpt heap needFree).map fun heap =>
        ({ r with heap, header := Function.update r.header .deflt (some cmd) }, true)
    else if isSubtree url then
      (insertToFifo heap cmd (r.header .fifo) r.prefixT).map fun (heap, header, tail) =>
        ({ heap, header := Function.update r.header .fifo header, prefixT := tail }, true)
    else
      let hash := urlHash url
      (insertToHeader heap cmd (r.header (.bucket hash))).map fun (heap, header) =>
        ({ r with heap, header := Function.update r.header (.bucket hash) header }, true)

/-- The list `ssn_server_remove_method` searches. -/
def listOf (url : Bytes) : Slot := if isSubtree url then .fifo else .bucket (urlHash url)

/-- `ssn_server_remove_method`. -/
def removeMethod (r : Router β) (url : Bytes) : Option (Router β) :=
  if !methodUrlOk url then some r
  else if isDef url then
    (freeOpt r.heap (r.header .deflt)).map fun heap =>
      { r with heap, header := Function.update r.header .deflt none }
  else
    let slot := listOf url
    (r.heap.find (fun c => c.url = url.take (pathLen url)) r.heap.fresh (r.header slot)).bind fun
      | none => some r
      | some cmd =>
        (deleteFromList r.heap cmd (r.header slot)).bind fun (heap, header) =>
          (heap.free cmd).map fun heap =>
            { r with heap, header := Function.update r.header slot header }

/-- The test `ssn_server_cmd_match` makes on a subtree rule. -/
def subtreeMatch (path url : Bytes) : Bool :=
  path.length ≤ url.length ∧ path = url.take path.length ∧
    (path.length = url.length ∨ url[path.length]? = some slash)

/-- `ssn_server_cmd_match`. -/
def cmdMatch (r : Router β) (url : Bytes) : Option (Option Nat) :=
  let hash := urlHash url
  (r.heap.find (fun c => c.url = url) r.heap.fresh (r.header (.bucket hash))).bind fun
    | some cmd => some (some cmd)
    | none =>
      (r.heap.find (fun c => subtreeMatch c.url url) r.heap.fresh (r.header .fifo)).bind fun
        | some cmd => some (some cmd)
        | none => some (r.header .deflt)

/-- The handler of the rule that `cmdMatch` finds. -/
def handler (r : Router β) (url : Bytes) : Option (Option β) :=
  (r.cmdMatch url).bind fun
    | none => some none
    | some cmd => (r.heap.cells cmd).map fun n => some n.val.onrpc

end Router

/-! ## The reference -/

/-- The method table as its user sees it. -/
structure RefRouter (β : Type*) where
  /-- The rule for `/`. -/
  deflt : Option β
  /-- The rules for subtrees by path, oldest first. -/
  subtrees : List (Cmd β)
  /-- The rules for exact urls, newest first. -/
  exacts : List (Cmd β)
  deriving DecidableEq

namespace RefRouter

variable {β : Type*}

def init : RefRouter β := ⟨none, [], []⟩

def add (s : RefRouter β) (url : Bytes) (callback : β) : RefRouter β :=
  if url.head? ≠ some slash then s
  else if url = [slash] then { s with deflt := some callback }
  else if url.getLast? = some slash then
    { s with subtrees := s.subtrees ++ [⟨url.dropLast, callback⟩] }
  else { s with exacts := ⟨url, callback⟩ :: s.exacts }

/-- Remove a rule: the oldest equal subtree rule, or the newest equal exact rule. -/
def remove (s : RefRouter β) (url : Bytes) : RefRouter β :=
  if url.head? ≠ some slash then s
  else if url = [slash] then { s with deflt := none }
  else if url.getLast? = some slash then
    { s with subtrees := s.subtrees.eraseP fun c => c.url = url.dropLast }
  else { s with exacts := s.exacts.eraseP fun c => c.url = url }

/-- The handler for a request: the newest exact rule, else the oldest subtree rule whose path is
the url or is followed by `/` in it, else the default. -/
def lookup (s : RefRouter β) (url : Bytes) : Option β :=
  ((s.exacts.find? fun c => c.url = url).map Cmd.onrpc).or <|
    ((s.subtrees.find? fun c => c.url = url ∨ c.url ++ [slash] <+: url).map Cmd.onrpc).or s.deflt

end RefRouter

end Ssn
