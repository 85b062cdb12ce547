import Stencil.Cache
import Stencil.Settings

/-! The pages of a web application: its configuration sets up the cache, and a page is rendered into
a response. -/
namespace Stencil

/-- A setting counts as yes unless it is nothing, zero or empty. -/
def Host.isSet : Host → Bool
  | .null => false
  | .bool b => b
  | .int n => n != 0
  | .float x => !Binary64.isZero x
  | .string s => !s.isEmpty
  | .list items => !items.isEmpty
  | .tuple items => !items.isEmpty
  | .mapping entries => !entries.isEmpty
  | _ => true

inductive SettingFault where
  | notAPath (typeName : String)
  deriving DecidableEq, Repr

def SettingFault.message : SettingFault → String
  | notAPath typeName => s!"expected str, bytes or os.PathLike object, not {typeName}"

structure Response where
  status : Int
  mimetype : Option String
  body : String
  deriving DecidableEq, Repr

namespace Response

def essence (mimetype : String) : String :=
  String.ofList (Text.trim (mimetype.toList.takeWhile (· != ';')))

/-- The content type that is asked for. It must fit on one line, and an empty one is none. -/
def contentType : Host → Except Failure (Option String)
  | .null => .ok (some "text/html")
  | .string s =>
    if s.toList.any (fun c => c == '\r' || c == '\n') then .error .brokenHeader
    else .ok (if s = "" then none else some (essence s))
  | other => .error (.absentMethod other.typeName "startswith")

/-- The code of the status that is asked for. Of a status line it is the number before the first
space, and a line that starts with no number has code zero. -/
def code : Host → Except Failure Int
  | .null => .ok 200
  | .int n => .ok n
  | .bool b => .ok (if b then 1 else 0)
  | .string line =>
    match Text.trim line.toList with
    | [] => .error .emptyStatus
    | shown => .ok ((Decimal.integerOfText? (shown.takeWhile (· != ' '))).getD 0)
  | other => .error (.absentMethod other.typeName "strip")

def make (status mimetype : Host) (body : String) : Except Failure Response := do
  let mimetype ← contentType mimetype
  let status ← code status
  return ⟨status, mimetype, body⟩

end Response

namespace Cache

/-- The cache of an application; the last setting of a name counts. Development mode follows the
debug switch unless it is configured; paths are seen from the configured root, or else from
`here`. -/
def ofConfiguration (here : Path) (config : List (String × Host)) : Except SettingFault Cache :=
  let setting (name : String) := (config.reverse.lookup name).getD .null
  let development :=
    match setting "TEMPLATE_DEV_MODE" with
    | .null => (setting "DEBUG").isSet
    | value => value.isSet
  let root := setting "TEMPLATE_ROOT"
  if root.isSet then
    match root with
    | .string written => .ok (empty development ⟨here, written⟩)
    | other => .error (.notAPath other.typeName)
  else .ok (empty development ⟨here, ""⟩)

def respond (files : File.Tree) (compile : Compiler) (g : Globals) (c : Cache) (written : String)
    (data : Option Host) (named : List (String × Host)) (status mimetype : Host) :
    Except Failure Response × Cache :=
  match render files compile g c written data named with
  | (.ok body, c') => (Response.make status mimetype body, c')
  | (.error fault, c') => (.error fault, c')

end Cache
end Stencil
