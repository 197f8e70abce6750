import FleetInventory.Text.Split

/-!
What a request line names: a path of the server, a whole address, an authority alone, or the
asterisk. Path and query are kept, scheme and authority only checked, and a fragment is dropped.
-/
namespace FleetInventory

/-- The path, empty for an authority alone, and the query after its first question mark. -/
structure Target where
  path : String
  query : Option String
  deriving DecidableEq

/-- What has been read of an authority: the colons and percent signs since the user name or the
bracketed address ended, and the brackets. -/
structure Authority where
  colons : Nat
  percent : Bool
  opened : Bool
  closed : Bool
  deriving DecidableEq

namespace Authority

def start : Authority := ⟨0, false, false, false⟩

def greatestColons : Nat := 8

def isPlain (c : Char) : Bool := c.isAlphanum || "!$&'()*+,-.;=_~".toList.contains c

/-- One more character, if it may stand here. Colons and percent signs of a user name and of a
bracketed address do not count beyond it. -/
def step? (a : Authority) (c : Char) : Option Authority :=
  if c = ':' then if a.colons < greatestColons then some { a with colons := a.colons + 1 } else none
  else if c = '[' then if a.percent || a.opened then none else some { a with opened := true }
  else if c = ']' then if a.opened && !a.closed then some ⟨0, false, true, true⟩ else none
  else if c = '@' then some { a with colons := 0, percent := false }
  else if c = '%' then some { a with percent := true }
  else if isPlain c then some a
  else none

def isFinished (a : Authority) : Bool := a.opened = a.closed && a.colons ≤ 1 && !a.percent

def accepts (cs : List Char) : Bool :=
  match cs.foldlM step? start with
  | some a => a.isFinished && cs.getLast? ≠ some '@'
  | none => false

end Authority

namespace Target

def greatestBytes : Nat := 65534
def greatestScheme : Nat := 64

def beforeFragment (cs : List Char) : List Char := cs.takeWhile (· ≠ '#')

def isPathChar (c : Char) : Bool :=
  let n := c.toNat
  n = 0x21 || n = 0x22 || (0x24 ≤ n && n ≤ 0x3B) || n = 0x3D || (0x40 ≤ n && n ≤ 0x5F)
    || (0x61 ≤ n && n ≠ 0x7F)

def isQueryChar (c : Char) : Bool :=
  let n := c.toNat
  n = 0x21 || (0x24 ≤ n && n ≤ 0x3B) || n = 0x3D || (0x3F ≤ n && n ≠ 0x7F)

def ofPath? (cs : List Char) : Option Target :=
  let (path, query) := match Text.cut '?' (beforeFragment cs) with
    | some (path, query) => (path, some query)
    | none => (beforeFragment cs, none)
  let path := if path.isEmpty then ['/'] else path
  if path.all isPathChar && (query.getD []).all isQueryChar then
    some ⟨String.ofList path, query.map String.ofList⟩
  else none

def isAuthorityEnd (c : Char) : Bool := c = '/' || c = '?' || c = '#'

def isSchemeChar (c : Char) : Bool := c.isAlphanum || c = '+' || c = '-' || c = '.' || c = '~'

def cutScheme? (cs : List Char) : Option (List Char × List Char) :=
  match Text.cut ':' cs with
  | some (scheme, '/' :: '/' :: rest) =>
    if scheme.all isSchemeChar then some (scheme, rest) else none
  | _ => none

/-- A whole address needs an authority; without a scheme there is nothing else. -/
def ofAddress? (cs : List Char) : Option Target :=
  match cutScheme? cs with
  | some (scheme, rest) =>
    let authority := rest.takeWhile (!isAuthorityEnd ·)
    if scheme.length ≤ greatestScheme && !authority.isEmpty && Authority.accepts authority then
      ofPath? (rest.dropWhile (!isAuthorityEnd ·))
    else none
  | none => if !cs.isEmpty && Authority.accepts cs then some ⟨"", none⟩ else none

def parse? (text : String) : Option Target :=
  if greatestBytes < text.utf8ByteSize then none
  else
    match text.toList with
    | ['*'] => some ⟨"*", none⟩
    | '/' :: rest => ofPath? ('/' :: rest)
    | cs => ofAddress? cs

end Target
end FleetInventory
