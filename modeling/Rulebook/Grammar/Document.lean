import Rulebook.Grammar.Rule

/-!
# Documents of rules

Documents of several rules. The tokens are split into blocks, one for each rule, before any rule is
read, so that a fault in one block leaves the others alone. A block ends with the brace that closes
its outermost one, and before the keyword of another rule.
-/

namespace Rulebook

open Text (Position)

/-- The rules of a document, and the faults of the blocks that are no rules. -/
structure Document where
  rules : List Rule
  faults : List Grammar.Fault

namespace Document

def beginsRule (token : Token) : Bool :=
  token.lexeme == .keyword .rule

/-- Splits tokens into blocks, given the tokens of the block that is open and the number of braces
that are open in it. -/
def splitFrom (block : List Token) (depth : Int) : List Token → List (List Token)
  | [] => if block.isEmpty then [] else [block]
  | token :: tokens =>
    if beginsRule token && !block.isEmpty then block :: splitFrom [token] 0 tokens
    else if token.lexeme = .symbol .openBrace then splitFrom (block ++ [token]) (depth + 1) tokens
    else if token.lexeme = .symbol .closeBrace then
      if depth = 1 then (block ++ [token]) :: splitFrom [] 0 tokens
      else splitFrom (block ++ [token]) (depth - 1) tokens
    else splitFrom (block ++ [token]) depth tokens

/-- Splits the tokens of a document into blocks. -/
def blocks (tokens : List Token) : List (List Token) :=
  splitFrom [] 0 tokens

/-- The first malformed token of a block, as a fault. -/
def lexicalFault? (block : List Token) : Option Grammar.Fault :=
  block.findSome? fun token =>
    match token.lexeme with
    | .malformed fault => some ⟨.lexical fault, token.place⟩
    | _ => none

/-- Reads the rule that a block is. A malformed token is a fault wherever it stands in the block. -/
def readBlock (finish : Position) (block : List Token) : Except Grammar.Fault Rule :=
  match lexicalFault? block with
  | some fault => .error fault
  | none => Grammar.wholeRule finish block

/-- Reads blocks, keeping rules and faults in their order. -/
def ofBlocks (finish : Position) : List (List Token) → Document
  | [] => ⟨[], []⟩
  | block :: others =>
    let document := ofBlocks finish others
    match readBlock finish block with
    | .ok rule => { document with rules := rule :: document.rules }
    | .error fault => { document with faults := fault :: document.faults }

/-- The rules of the blocks of a text, and the faults of the blocks that are no rules. -/
def parse (text : String) : Document :=
  let scan := Scan.lenient text
  ofBlocks scan.finish (blocks scan.tokens)

/-- Reads a document, past all faults of syntax. The first fault of another kind ends the reading. -/
def read (text : String) : Except Grammar.Fault Document :=
  let document := parse text
  match document.faults.find? (!·.isSyntax) with
  | some fault => .error fault
  | none => .ok document

def isValid (document : Document) : Bool :=
  document.faults.isEmpty

/-- The rules of a document without faults, or its first fault. -/
def complete (document : Document) : Except Grammar.Fault (List Rule) :=
  match document.faults with
  | [] => .ok document.rules
  | fault :: _ => .error fault

/-- What is wrong with a document that ought to have rules, in words. -/
def complaint? (document : Document) : Option String :=
  match document.faults, document.rules with
  | fault :: _, _ => some fault.message
  | [], [] => some "No rules found"
  | [], _ => none

end Document

def Rule.parseAll (text : String) : Except Grammar.Fault (List Rule) :=
  match Document.read text with
  | .ok document => document.complete
  | .error fault => .error fault

end Rulebook
