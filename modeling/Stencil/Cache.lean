import Stencil.Template

/-! A store of compiled templates. In production a template is compiled when it is first asked for
and kept until it is dropped; in development every request compiles anew and nothing is kept. Each
path that compiled keeps a lock, so that requests at the same time do not compile it twice. -/
namespace Stencil

structure Cache where
  development : Bool
  /-- Relative paths are seen from here. -/
  base : File.Base
  templates : List (Path × Template)
  locks : List Path
  hits : Nat
  misses : Nat
  compilations : Nat

namespace Cache

def empty (development : Bool) (base : File.Base) : Cache := ⟨development, base, [], [], 0, 0, 0⟩

def resolve (files : File.Tree) (c : Cache) (written : String) : Except PathFault Path :=
  files.resolve c.base written

def size (c : Cache) : Nat := c.templates.length

abbrev Compiler := Path → Except LoadFault Template

/-- Asks for a template that is not stored. A failure leaves nothing behind but the counts. -/
def miss (compile : Compiler) (c : Cache) (key : Path) : Except LoadFault Template × Cache :=
  let counted := { c with misses := c.misses + 1, compilations := c.compilations + 1 }
  match compile key with
  | .ok t =>
    (.ok t, { counted with templates := (key, t) :: c.templates, locks := c.locks.insert key })
  | .error fault => (.error fault, { counted with locks := c.locks.erase key })

def fetch (compile : Compiler) (c : Cache) (key : Path) : Except LoadFault Template × Cache :=
  if c.development then (compile key, { c with compilations := c.compilations + 1 })
  else
    match c.templates.lookup key with
    | some t => (.ok t, { c with hits := c.hits + 1 })
    | none => miss compile c key

/-- A path that cannot be resolved is not even counted. -/
def get (files : File.Tree) (compile : Compiler) (c : Cache) (written : String) :
    Except LoadFault Template × Cache :=
  match c.resolve files written with
  | .error fault => (.error (.unresolvable fault), c)
  | .ok key => fetch compile c key

def isCached (files : File.Tree) (c : Cache) (written : String) : Except PathFault Bool :=
  (c.resolve files written).map fun key => (c.templates.lookup key).isSome

def drop (c : Cache) (key : Path) : Bool × Cache :=
  if c.locks.contains key then
    ((c.templates.lookup key).isSome,
      { c with templates := c.templates.filter fun entry => entry.1 != key })
  else (false, c)

def invalidate (files : File.Tree) (c : Cache) (written : String) : Except PathFault Bool × Cache :=
  match c.resolve files written with
  | .error fault => (.error fault, c)
  | .ok key => ((drop c key).map .ok id)

def clear (c : Cache) : Cache := { c with templates := [] }

def render (files : File.Tree) (compile : Compiler) (g : Globals) (c : Cache) (written : String)
    (data : Option Host) (named : List (String × Host)) : Except Failure String × Cache :=
  match get files compile c written with
  | (.error fault, c') => (.error (.load fault), c')
  | (.ok t, c') =>
    match t.render g data named with
    | .ok s => (.ok s, c')
    | .error fault => (.error (.render fault), c')

/-- Two requests in a row, and whether they gave one and the same template: only a stored template
is handed out twice. -/
def getBoth (files : File.Tree) (compile : Compiler) (c : Cache) (written other : String) :
    Except LoadFault Bool × Cache :=
  match get files compile c written with
  | (.error fault, c') => (.error fault, c')
  | (.ok _, c') =>
    match get files compile c' other with
    | (.error fault, c'') => (.error fault, c'')
    | (.ok _, c'') =>
      (.ok (!c.development &&
        (c.resolve files written).toOption == (c.resolve files other).toOption), c'')

def renderMany (files : File.Tree) (compile : Compiler) (g : Globals) (written : String)
    (data : Option Host) (named : List (String × Host)) :
    Nat → Cache → List (Except Failure String) × Cache
  | 0, c => ([], c)
  | n + 1, c =>
    let (first, c') := render files compile g c written data named
    let (others, c'') := renderMany files compile g written data named n c'
    (first :: others, c'')

end Cache
end Stencil
