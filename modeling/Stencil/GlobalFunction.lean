import Stencil.Cipher.NumberToken

/-! Functions that are called by name and not on a value. -/
namespace Stencil

/-- What a render works with: the key and the seed of number tokens, the address of the script that
pages load, and the frames that the stack has left for a value to be written or compared. -/
structure Globals where
  key : CipherKey
  seed : TokenSeed
  turboUrl : String
  room : Nat

inductive GlobalFunction where
  | encryptNumber | decryptNumber | turboHead
  deriving DecidableEq, Repr

namespace GlobalFunction

def all : List GlobalFunction := [decryptNumber, encryptNumber, turboHead]

def name : GlobalFunction → String
  | encryptNumber => "encrypt_number" | decryptNumber => "decrypt_number"
  | turboHead => "turbo_head"

def find? (name : String) : Option GlobalFunction := all.find? fun f => f.name == name

def arity : GlobalFunction → Nat
  | encryptNumber | decryptNumber => 1
  | turboHead => 0

def scriptTag (url : String) : String := "<script type=\"module\" src=\"" ++ url ++ "\"></script>"

def apply (g : Globals) (f : GlobalFunction) (args : List Value) : Except RenderFault Value :=
  match f, args with
  | encryptNumber, [.int n] => (NumberToken.encrypt g.key g.seed n).map .string
  | encryptNumber, [v] =>
    .error (.mismatch (.kind .integer) v.kind.text (some (.argumentTo f.name)))
  | decryptNumber, [.string s] => (NumberToken.decrypt g.key s).map .int
  | decryptNumber, [v] => .error (.mismatch (.kind .string) v.kind.text (some (.argumentTo f.name)))
  | turboHead, [] => .ok (.string (scriptTag g.turboUrl))
  | f, args =>
    if args.length < f.arity then
      .error (.mismatch (.atLeastArguments f.arity) (toString args.length) (some (.callTo f.name)))
    else .error (.mismatch (.atMostArguments f.arity) (toString args.length)
      (some (.callTo f.name)))

def call (g : Globals) (name : String) (args : List Value) : Except RenderFault Value :=
  match find? name with
  | some f => f.apply g args
  | none => .error (.undefinedOperation "global" name)

end GlobalFunction
end Stencil
