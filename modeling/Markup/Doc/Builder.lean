import Markup.Doc.Node
import Markup.Log

/-! # Building documents

A `Builder` collects what is pushed to it: blocks, and after them a run of inline content that
has not been given a block yet. Pushing inline content extends the run; pushing a block first
drains the run into the blocks that are there.

A run is drained into the last block, if that can take it (`absorbBlock`): into the end of its
inline content, or further down into the last block of the blocks, items or definitions it
holds. A table takes a run only as its first cell, and later runs are dropped with a warning; a
rule or a formula takes none, so the run becomes a paragraph after it. A list of terms without
any term cannot take a run, and draining fails (`BuildError.emptyTermList`). -/

namespace Markup

/-- Why content cannot be put together: text stands behind a list of terms that has none, or blocks
of these kinds where inline content is expected. -/
inductive BuildError where
  | emptyTermList
  | unexpectedBlocks (kinds : List String)
deriving DecidableEq, Repr, Inhabited

/-- The wording of an error. -/
def BuildError.message : BuildError → String
  | emptyTermList =>
    "cannot add text to a term list with no items: the item would have no term"
  | unexpectedBlocks kinds =>
    "expected inline content, got blocks: " ++ ", ".intercalate kinds

/-! ### Draining -/

/-- The outcome of draining a run into a tree, and what there is to tell about it. -/
abbrev Absorbed (α : Type) := Except BuildError (α × List LogEntry)

/-- Puts what a run was drained into back where it came from. -/
def Absorbed.rebuild {α β : Type} (f : α → β) (a : Absorbed α) : Absorbed β :=
  a.map fun (tree, log) => (f tree, log)

/-- A table takes a run as its first cell, and no more. -/
def absorbTable (run : List Inline) (columns : List TableColumn)
    (rows : List (List TableCell)) : Absorbed Block :=
  match rows.getLast? with
  | some (_ :: _) => .ok (.table columns rows, [.discarded run.length])
  | _ => .ok (.table columns (rows ++ [[.mk [.plain run] none 1 1]]), [])

mutual

/-- Drains a run into blocks: into the last one, or as a first paragraph. -/
def absorbBlocks (run : List Inline) : List Block → Absorbed (List Block)
  | [] => .ok ([.par run], [])
  | b :: rest =>
    match rest with
    | [] => absorbBlock run b
    | _ :: _ => (absorbBlocks run rest).rebuild (b :: ·)

/-- Drains a run into a block; the result takes its place. -/
def absorbBlock (run : List Inline) : Block → Absorbed (List Block)
  | .plain content => .ok ([.plain (content ++ run)], [])
  | .par content => .ok ([.par (content ++ run)], [])
  | .codeBlock language content => .ok ([.codeBlock language (content ++ run)], [])
  | .heading level text => .ok ([.heading level (text ++ run)], [])
  | .figure content caption => .ok ([.figure content (caption ++ run)], [])
  | .blockQuote content => (absorbBlocks run content).rebuild ([.blockQuote ·])
  | .tagged content metadata => (absorbBlocks run content).rebuild ([.tagged · metadata])
  | .defn kind content => (absorbBlocks run content).rebuild ([.defn kind ·])
  | .list kind items => (absorbItems run items).rebuild ([.list kind ·])
  | .termList items => (absorbTerms run items).rebuild ([.termList ·])
  | .table columns rows => (absorbTable run columns rows).rebuild ([·])
  | .rule => .ok ([.rule, .par run], [])
  | .mathBlock tex => .ok ([.mathBlock tex, .par run], [])
  | .foreign value => .ok ([.foreign value], [])

/-- Drains a run into the last item of a list, or as a first item. -/
def absorbItems (run : List Inline) : List ListItem → Absorbed (List ListItem)
  | [] => .ok ([.mk [.par run] none], [])
  | .mk content label :: rest =>
    match rest with
    | [] => (absorbBlocks run content).rebuild ([.mk · label])
    | _ :: _ => (absorbItems run rest).rebuild (.mk content label :: ·)

/-- Drains a run into the last definition of a list of terms. -/
def absorbTerms (run : List Inline) : List TermItem → Absorbed (List TermItem)
  | [] => .error .emptyTermList
  | .mk term content :: rest =>
    match rest with
    | [] => (absorbBlocks run content).rebuild ([.mk term ·])
    | _ :: _ => (absorbTerms run rest).rebuild (.mk term content :: ·)

end

/-! ### Builders -/

/-- A document in the making. -/
structure Builder where
  metadata : Metadata := []
  blocks : List Block := []
  pending : List Inline := []
deriving Inhabited

/-- A short description of a builder. -/
def Builder.describe (b : Builder) : String :=
  "DocBuilder(" ++ toString b.blocks.length ++ " blocks, " ++ toString b.pending.length ++
    " pending)"

/-- What may be pushed to a builder. -/
inductive Element where
  | text (text : String)
  | span (span : Span)
  | inline (value : Inline)
  | block (value : Block)
  | seq (elements : List Element)
  | other (value : Foreign)
deriving Inhabited

/-- A block as an element; what stands in the place of a block is pushed as what it is. -/
def Element.ofBlock : Block → Element
  | .foreign (.inline value) => .inline value
  | .foreign (.block value) => .block value
  | .foreign (.span value) => .span value
  | .foreign (.scalar (.text value)) => .text value
  | .foreign value => .other value
  | value => .block value

/-- A builder and the log that goes with it. -/
structure Session where
  builder : Builder := {}
  log : List LogEntry := []
deriving Inhabited

/-- Why a push or a drain fails. -/
inductive BuildFailure where
  | build (error : BuildError)
  | unpushable (kind : String)
deriving DecidableEq, Repr, Inhabited

/-- The wording of a failure. -/
def BuildFailure.message : BuildFailure → String
  | build error => error.message
  | unpushable kind => "cannot push " ++ kind ++ " to a document"

/-- Steps that change a session; what a step that fails has changed stays changed. -/
abbrev Build := ExceptT BuildFailure (StateM Session)

namespace Build

/-- Changes the builder. -/
def change (f : Builder → Builder) : Build Unit :=
  modify fun s => { s with builder := f s.builder }

/-- Sets a key. -/
def setMetadata (key value : String) : Build Unit :=
  change fun b => { b with metadata := b.metadata.set key value }

/-- Adds to the pending run. -/
def pushInline (i : Inline) : Build Unit := change fun b => { b with pending := b.pending ++ [i] }

/-- Puts the pending run into the blocks. The run is taken off first, so it is gone if it finds
no place. -/
def drain : Build Unit := do
  let b := (← get).builder
  unless b.pending.isEmpty do
    change fun b => { b with pending := [] }
    match absorbBlocks b.pending b.blocks with
    | .error e => throw (.build e)
    | .ok (blocks, log) =>
      change fun b => { b with blocks }
      modify fun s => { s with log := s.log ++ log }

/-- Adds a block after draining. -/
def pushBlock (value : Block) : Build Unit := do
  drain
  change fun b => { b with blocks := b.blocks ++ [value] }

mutual

/-- Pushes an element. -/
def push : Element → Build Unit
  | .text text => pushInline (.text text)
  | .span span => pushInline (.text span.fragment)
  | .inline value => pushInline value
  | .block value => pushBlock value
  | .seq elements => pushAll elements
  | .other value => throw (.unpushable value.kindName)

/-- Pushes elements in turn. -/
def pushAll : List Element → Build Unit
  | [] => return
  | e :: rest => do
    push e
    pushAll rest

end

/-- All blocks, the pending run drained. -/
def intoBlocks : Build (List Block) := do
  drain
  return (← get).builder.blocks

/-- The finished document. -/
def intoDocument : Build Document := do
  let blocks ← intoBlocks
  return ⟨(← get).builder.metadata, blocks⟩

/-- The content as one run: nothing, or the content of a single paragraph. -/
def intoInlines : Build (List Inline) := do
  match ← intoBlocks with
  | [] => return []
  | [.plain content] | [.par content] => return content
  | blocks => throw (.build (.unexpectedBlocks (blocks.map Block.kindName)))

end Build

end Markup
