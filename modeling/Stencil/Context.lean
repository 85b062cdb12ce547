import Stencil.Record

/-! The names a template can use, with their values. Data comes as a mapping or from an object that
brings one; variables given beside it take the place of its entries. -/
namespace Stencil.Context

/-- The mapping an object brings, or the data itself. A record brings one by a method of its own,
and none if it holds something else there. -/
def provided : Host → Except RenderFault Host
  | .provider _ context => .ok context
  | .record (.fields i face fields allowed attributes) =>
    match Record.attribute? fields attributes "to_template_context" with
    | some (.method context) => .ok context
    | some other => .error (.notCallable other.qualifiedTypeName)
    | none => .ok (.record (.fields i face fields allowed attributes))
  | data => .ok data

def entriesOf (data : Option Host) : Except RenderFault (List (Host × Host)) :=
  match data with
  | none => .ok []
  | some x => do
    match ← provided x with
    | .mapping entries => .ok entries
    | other => .error (.mismatch .mapping other.typeName (some .context))

def bindings (data : Option Host) (named : List (String × Host)) :
    Except RenderFault (List (Host × Host)) := do
  let entries ← entriesOf data
  return named.foldl (fun done v => Host.insert done (.string v.1) v.2) entries

def build (data : Option Host) (named : List (String × Host)) :
    Except RenderFault (List (String × Value)) := do
  let entries ← bindings data named
  Host.toEntries [] entries

end Stencil.Context
