import FleetInventory.Document.Basic
import FleetInventory.Document.Token

/-!
Documents from JSON text. The tokens are folded into a stack of containers part way through; a
text is accepted when its tokens end with one whole document. Containers nest up to 127 deep.
-/
namespace FleetInventory.Document

/-- A container part way through; the items of an array come last first. -/
inductive Frame where
  | items (done : List Document)
  | fields (done : Fields) (key : String)

inductive Expected where
  | value
  | itemOrClose
  | comma
  | key (done : Fields)
  | keyOrClose
  | colon (done : Fields) (key : String)
  | finished (whole : Document)

structure Progress where
  stack : List Frame
  expected : Expected

namespace Progress

def depthLimit : Nat := 127

def start : Progress := ⟨[], .value⟩

def deliver (value : Document) : List Frame → Progress
  | [] => ⟨[], .finished value⟩
  | .items done :: stack => ⟨.items (value :: done) :: stack, .comma⟩
  | .fields done key :: stack => ⟨.fields (done.put key value) key :: stack, .comma⟩

def begin? (stack : List Frame) (token : Token) : Option Progress :=
  match token with
  | .null => some (deliver .null stack)
  | .bool b => some (deliver (.bool b) stack)
  | .number n => some (deliver (.number n) stack)
  | .text s => some (deliver (.text s) stack)
  | .openArray =>
    if stack.length < depthLimit then some ⟨.items [] :: stack, .itemOrClose⟩ else none
  | .openObject =>
    if stack.length < depthLimit then some ⟨.fields [] "" :: stack, .keyOrClose⟩ else none
  | _ => none

def continue? (token : Token) : List Frame → Option Progress
  | .items done :: stack =>
    match token with
    | .comma => some ⟨.items done :: stack, .value⟩
    | .closeArray => some (deliver (.array done.reverse) stack)
    | _ => none
  | .fields done _ :: stack =>
    match token with
    | .comma => some ⟨stack, .key done⟩
    | .closeObject => some (deliver (.object done) stack)
    | _ => none
  | [] => none

def step? (p : Progress) (token : Token) : Option Progress :=
  match p.expected with
  | .value => begin? p.stack token
  | .itemOrClose =>
    match token, p.stack with
    | .closeArray, .items _ :: stack => some (deliver (.array []) stack)
    | _, _ => begin? p.stack token
  | .comma => continue? token p.stack
  | .key done =>
    match token with
    | .text key => some ⟨p.stack, .colon done key⟩
    | _ => none
  | .keyOrClose =>
    match token, p.stack with
    | .closeObject, .fields _ _ :: stack => some (deliver (.object []) stack)
    | .text key, .fields _ _ :: stack => some ⟨stack, .colon [] key⟩
    | _, _ => none
  | .colon done key =>
    match token with
    | .colon => some ⟨.fields done key :: p.stack, .value⟩
    | _ => none
  | .finished _ => none

def whole? (p : Progress) : Option Document :=
  match p.expected with
  | .finished d => some d
  | _ => none

end Progress

def ofTokens? (tokens : List Token) : Option Document :=
  (tokens.foldlM Progress.step? Progress.start).bind Progress.whole?

def parse? (source : String) : Option Document :=
  (Token.scan? source.toList).bind ofTokens?

end FleetInventory.Document
