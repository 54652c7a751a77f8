import Markup.Doc
import Markup.Eval

/-! # The standard commands

Sections, paragraphs and quotations, styled text, code and formulas, notes and links, lists and
lists of terms. `Builtin` lists the kinds of command, `Builtin.bind` says which arguments each
takes and what it does, and `standardDefinitions` gives them their names. Inside a list, and only
there, there is also `item`; inside a list of terms there is `term`. -/

namespace Markup

open Args

/-- The kinds of standard command. Code and formulas stand in the line or on lines of their own. -/
inductive Builtin where
  | par
  | heading (level : Int)
  | rule
  | quote
  | metadata
  | styled (style : Style)
  | code (block : Bool)
  | math (display : Bool)
  | footnote
  | link
  | list (kind : ListKind)
  | item
  | terms
  | term
deriving DecidableEq, Repr, Inhabited

/-! ### Blank space around items -/

/-- Drops blank text at the end of a run. -/
def trimRun (run : List Inline) : List Inline := (run.reverse.dropWhile Inline.isBlank).reverse

/-- Drops blank text at the end of a paragraph. -/
def Block.trimEnd : Block → Block
  | .par content => .par (trimRun content)
  | .plain content => .plain (trimRun content)
  | b => b

/-- Drops blank text at the end of the last paragraph: the space between two items is drained
into the first of them. -/
def trimBlocks : List Block → List Block
  | [] => []
  | b :: rest => if rest.isEmpty then [b.trimEnd] else b :: trimBlocks rest

/-- The items of the lists among blocks; all other blocks must be blank. -/
def collectItems : List Block → Except CommandCause (List ListItem)
  | [] => .ok []
  | .list _ items :: rest =>
    (collectItems rest).map (items.map (fun i => .mk (trimBlocks i.content) i.label) ++ ·)
  | b :: rest => if b.isBlank then collectItems rest else .error (.shape .notItem)

/-- The terms of the lists of terms among blocks; all other blocks must be blank. -/
def collectTerms : List Block → Except CommandCause (List TermItem)
  | [] => .ok []
  | .termList items :: rest =>
    (collectTerms rest).map (items.map (fun i => .mk i.term (trimBlocks i.content)) ++ ·)
  | b :: rest => if b.isBlank then collectTerms rest else .error (.shape .notTerm)

/-- A collection, or the reason why there is none. -/
def ofCollection {α : Type} : Except CommandCause α → Steps α
  | .ok a => return a
  | .error cause => .failWith cause

/-! ### What the commands do -/

/-- The definition of an item, which only lists know. -/
def itemDefinition : Definition Builtin := ⟨"item", .item, .markup⟩

/-- The definition of a term, which only lists of terms know. -/
def termDefinition : Definition Builtin := ⟨"term", .term, .markup⟩

/-- Sets keys in turn to the texts of the arguments from place `i` on. -/
def setKeys : List String → Nat → Steps Unit
  | [], _ => return
  | key :: rest, i => do
    .setKey key (← .textOf i)
    setKeys rest (i + 1)

/-- Takes the single argument of a command. -/
def onlyArgument (name : String) : Take Deferred := do
  let t ← popPositional (some name)
  checkNone
  return t

namespace Builtin

/-- Gives a standard command its arguments. -/
def bind : Builtin → Take (Command Builtin)
  | par => do
    checkNone
    return { steps := .pushBlock (.par []) }
  | heading level => do
    let title ← onlyArgument "title"
    return {
      arguments := [title]
      steps := do .pushBlock (.heading level (← .inlinesOf 0)) }
  | rule => do
    checkNone
    return { steps := .pushBlock .rule }
  | quote => do
    let content ← onlyArgument "content"
    return {
      arguments := [content]
      steps := do .pushBlock (.blockQuote (← .blocksOf 0)) }
  | metadata => do
    checkNoPositional
    let entries ← popKeywords
    return {
      arguments := entries.map (·.2)
      steps := setKeys (entries.map (·.1)) 0 }
  | styled style => do
    let content ← onlyArgument "content"
    return {
      arguments := [content]
      steps := do .pushInline (.styled style (← .inlinesOf 0)) }
  | code block => do
    let content ← popPositional (some "content")
    let language ← popOptional "lang"
    checkNone
    return {
      arguments := content :: language.toList
      steps := do
        let content ← .textOf 0
        let language ← language.mapM fun _ => .textOf 1
        if block then .pushBlock (.codeBlock language [.text content])
        else .pushInline (.code content language) }
  | math display => do
    let tex ← onlyArgument "tex"
    return {
      arguments := [tex]
      steps := do
        let tex ← .textOf 0
        if display then .pushBlock (.mathBlock tex) else .pushInline (.math tex) }
  | footnote => do
    let content ← onlyArgument "content"
    return {
      arguments := [content]
      steps := do .pushInline (.footnote (← .blocksOf 0)) }
  | link => do
    let url ← do
      match ← popOptional "url" with
      | some url => pure url
      | none => popPositional (some "url")
    let text ← if (← get).positional.isEmpty then pure none else some <$> popPositional none
    checkNone
    return {
      arguments := url :: text.toList
      steps := do
        let content ← text.mapM fun _ => .inlinesOf 1
        .pushInline (.link (← .textOf 0) content none .url) }
  | list kind => do
    let content ← onlyArgument "body"
    return {
      arguments := [content]
      locals := some (.ofDefinitions [itemDefinition])
      steps := do
        let blocks ← .blocksOf 0
        .pushBlock (.list kind (← ofCollection (collectItems blocks))) }
  | item => do
    let content ← onlyArgument "content"
    return {
      arguments := [content]
      steps := do .pushBlock (.list .unordered [.mk (← .blocksOf 0) none]) }
  | terms => do
    let content ← onlyArgument "body"
    return {
      arguments := [content]
      locals := some (.ofDefinitions [termDefinition])
      steps := do
        let blocks ← .blocksOf 0
        .pushBlock (.termList (← ofCollection (collectTerms blocks))) }
  | term => do
    let term ← popPositional (some "term")
    let definition ← popPositional (some "definition")
    checkNone
    return {
      arguments := [term, definition]
      steps := do
        let term ← .inlinesOf 0
        .pushBlock (.termList [.mk term (← .blocksOf 1)]) }

/-- The standard library. -/
def library : Library Builtin := ⟨bind⟩

end Builtin

/-! ### Names -/

/-- The commands that are known everywhere. -/
def standardDefinitions : List (Definition Builtin) := [
  ⟨"par", .par, .markup⟩,
  ⟨"sec", .heading 1, .markup⟩,
  ⟨"subsec", .heading 2, .markup⟩,
  ⟨"subsubsec", .heading 3, .markup⟩,
  ⟨"rule", .rule, .markup⟩,
  ⟨"quote", .quote, .markup⟩,
  ⟨"meta", .metadata, .markup⟩,
  ⟨"emph", .styled .emph, .markup⟩,
  ⟨"strong", .styled .strong, .markup⟩,
  ⟨"footnote", .footnote, .markup⟩,
  ⟨"link", .link, .markup⟩,
  ⟨"code", .code false, .literal⟩,
  ⟨"codeblock", .code true, .literal⟩,
  ⟨"math", .math false, .literal⟩,
  ⟨"displaymath", .math true, .literal⟩,
  ⟨"list", .list .unordered, .markup⟩,
  ⟨"enum", .list .ordered, .markup⟩,
  ⟨"terms", .terms, .markup⟩]

/-- A scope of nothing but the standard commands. -/
def standardScope : Scope Builtin := [.ofDefinitions standardDefinitions]

/-- Evaluates a source with the standard commands. -/
def evaluateStandard (source : Source) (maxDepth : Int) (interpreter : Interpreter := {}) :
    Except Error Document × List LogEntry :=
  evaluate Builtin.library { scope := standardScope, source, maxDepth } interpreter

end Markup
