import Stencil.Host.Basic

/-! Equality of host data, by which the keys of a mapping and the fields of records are compared.
Numbers of all kinds are equal when their values are, truth values counting as zero and one. -/
namespace Stencil

def Host.number? : Host → Option Decimal
  | .bool b => some (.ofInt (if b then 1 else 0))
  | .int n => some (.ofInt n)
  | .float x => some (.ofFloat x)
  | .decimal d => some d
  | _ => none

mutual

def Host.same : Host → Host → Bool
  | .null, .null => true
  | .string s, .string t => s == t
  | .list xs, .list ys => Host.sameAll xs ys
  | .tuple xs, .tuple ys => Host.sameAll xs ys
  | .tuple xs, .pair c d => Host.sameAll xs [c, d]
  | .pair a b, .tuple ys =>
    match ys with
    | [c, d] => Host.same a c && Host.same b d
    | _ => false
  | .pair a b, .pair c d => Host.same a c && Host.same b d
  | .mapping xs, .mapping ys => xs.length == ys.length && Host.sameEntries xs ys
  | .date d, .date e => d == e
  | .datetime t, .datetime u => t.same u
  | .uuid u, .uuid v => u == v
  | .unsupported s, .unsupported t =>
    s == t && (s.typeName == "set" || s.typeName == "bytes" || s.typeName == "complex")
  | .record r, .record s => Record.same r s
  | x, y =>
    match x.number?, y.number? with
    | some p, some q => p.same q
    | _, _ => false
termination_by structural x => x

def Host.sameAll : List Host → List Host → Bool
  | [], [] => true
  | x :: xs, y :: ys => Host.same x y && Host.sameAll xs ys
  | _, _ => false
termination_by structural x => x

def Host.sameEntries : List (Host × Host) → List (Host × Host) → Bool
  | [], _ => true
  | (k, x) :: rest, ys =>
    ys.any (fun entry => Host.same k entry.1 && Host.same x entry.2) && Host.sameEntries rest ys
termination_by structural x => x

def Host.sameFields : List (String × Host) → List (String × Host) → Bool
  | [], [] => true
  | (m, x) :: xs, (n, y) :: ys => m == n && Host.same x y && Host.sameFields xs ys
  | _, _ => false
termination_by structural x => x

/-- Records with named fields are equal when they look alike, all others only when they are the
same. -/
def Record.same : Record → Record → Bool
  | .fields i face xs allowed _, .fields j face' ys allowed' _ =>
    i == j || (face.typeName == face'.typeName && allowed == allowed' && Host.sameFields xs ys)
  | r, s => r.identity == s.identity
termination_by structural x => x
end

def Host.insert (entries : List (Host × Host)) (key value : Host) : List (Host × Host) :=
  match entries with
  | [] => [(key, value)]
  | (k, v) :: rest =>
    if Host.same k key then (k, value) :: rest else (k, v) :: Host.insert rest key value

def Host.ofEntries (entries : List (Host × Host)) : Host :=
  .mapping (entries.foldl (fun done entry => Host.insert done entry.1 entry.2) [])

end Stencil
