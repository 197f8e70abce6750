import FleetInventory.Document.Number

/-!
JSON documents. The fields of an object keep the order in which their keys first came; writing a
key again replaces its value in place. Two documents are the same when they agree up to the order
of fields.
-/
namespace FleetInventory

inductive Document where
  | null
  | bool (b : Bool)
  | number (n : Number)
  | text (s : String)
  | array (items : List Document)
  | object (fields : List (String × Document))
  deriving Inhabited

namespace Document

abbrev Fields := List (String × Document)

def Fields.put (key : String) (value : Document) : Fields → Fields
  | [] => [(key, value)]
  | (k, v) :: rest => if k = key then (k, value) :: rest else (k, v) :: Fields.put key value rest

def Fields.get? (key : String) (fields : Fields) : Option Document := fields.lookup key

def int (n : Int) : Document := number (Number.ofInt n)

def optionalText : Option String → Document
  | some s => text s
  | none => null

def field? (key : String) : Document → Option Document
  | object fields => fields.lookup key
  | _ => none

mutual

def same : Document → Document → Bool
  | null, null => true
  | bool a, bool b => a = b
  | number a, number b => a.same b
  | text a, text b => a = b
  | array as, array bs => sameItems as bs
  | object as, object bs => as.length = bs.length && sameFields as bs
  | _, _ => false

def sameItems : List Document → List Document → Bool
  | [], [] => true
  | a :: as, b :: bs => same a b && sameItems as bs
  | _, _ => false

def sameFields : List (String × Document) → List (String × Document) → Bool
  | [], _ => true
  | (key, a) :: rest, bs =>
    (match bs.lookup key with
      | some b => same a b
      | none => false) && sameFields rest bs

end

end Document
end FleetInventory
