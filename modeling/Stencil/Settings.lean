import Stencil.GlobalFunction
import Stencil.Text.Case

/-! What an application sets up from its environment. -/
namespace Stencil

structure Settings where
  secretKey : RawText
  encryptionKey : RawText
  environment : String
  debug : Bool
  development : Bool
  templateRoot : String
  turboUrl : String
  deriving DecidableEq, Repr

namespace Settings

def setting? (env : List (String × RawText)) (name : String) : Option RawText :=
  env.reverse.lookup name

def shown? (env : List (String × RawText)) (name : String) : Option String :=
  (setting? env name).map RawText.shown

def flag? (env : List (String × RawText)) (name : String) : Option Bool :=
  (shown? env name).map fun s =>
    ["1", "true", "yes", "on"].contains (String.ofList (Text.lower (Text.trim s.toList)))

def defaultSecret : String := "dev-secret-key-change-in-production"

def defaultTurboUrl : String :=
  "https://cdn.jsdelivr.net/npm/@hotwired/turbo@8/dist/turbo.es2017-esm.min.js"

/-- Templates are compiled on every request while debugging, unless said otherwise; debugging has to
be asked for, even though the environment counts as a development one by default. -/
def ofEnvironment (env : List (String × RawText)) : Settings :=
  let raw (name absent : String) := (setting? env name).getD (.ofString absent)
  let get (name absent : String) := (shown? env name).getD absent
  let debug := shown? env "FLASK_ENV" == some "development"
  { secretKey := raw "SECRET_KEY" defaultSecret
    encryptionKey := raw "ENCRYPTION_KEY" ""
    environment := get "FLASK_ENV" "development"
    debug := debug
    development := (flag? env "TEMPLATE_DEV_MODE").getD debug
    templateRoot := get "TEMPLATE_ROOT" ""
    turboUrl := get "TURBO_URL" defaultTurboUrl }

def defaults : Settings := ofEnvironment []

def keyText (s : Settings) : Except KeyFault String :=
  CipherKey.configured s.encryptionKey s.secretKey

def key (s : Settings) (given : String) : Except KeyFault CipherKey :=
  (if given = "" then s.keyText else .ok given) >>= CipherKey.ofText

def scriptUrl (s : Settings) (given : String) : String := if given = "" then s.turboUrl else given

def globals (s : Settings) (key : String) (seed : TokenSeed) (turboUrl : String) (room : Nat) :
    Except KeyFault Globals :=
  (s.key key).map fun k => ⟨k, seed, s.scriptUrl turboUrl, room⟩

end Settings
end Stencil
