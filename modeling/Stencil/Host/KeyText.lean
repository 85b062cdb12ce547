import Stencil.Host.Basic

/-! The text of host data used as the key of a mapping. Inside a tuple each part is written the way
a developer would write it down. -/
namespace Stencil

def DateTime.constructorText (t : DateTime) : String :=
  let seconds :=
    if t.microsecond ≠ 0 then [t.second, t.microsecond] else if t.second ≠ 0 then [t.second] else []
  let numbers := [t.date.year, t.date.month, t.date.day, t.hour, t.minute] ++ seconds
  let zone :=
    match t.offset with
    | none => []
    | some 0 => ["tzinfo=datetime.timezone.utc"]
    | some minutes =>
      let days := if minutes < 0 then "days=-1, " else ""
      [s!"tzinfo=datetime.timezone(datetime.timedelta({days}seconds={minutes * 60 % 86400}))"]
  "datetime.datetime(" ++ ", ".intercalate (numbers.map toString ++ zone) ++ ")"

def tupleText : List String → String
  | [only] => s!"({only},)"
  | parts => "(" ++ ", ".intercalate parts ++ ")"

mutual

def Host.writtenText : Host → String
  | .null => "None"
  | .bool b => if b then "True" else "False"
  | .int n => toString n
  | .float x => FloatLayout.written.text x
  | .string s => Text.quoted s
  | .tuple items => tupleText (Host.writtenTexts items)
  | .list items => "[" ++ ", ".intercalate (Host.writtenTexts items) ++ "]"
  | .pair a b => s!"Pair(first={Host.writtenText a}, second={Host.writtenText b})"
  | .decimal d => s!"Decimal('{d.text}')"
  | .date d => s!"datetime.date({d.year}, {d.month}, {d.day})"
  | .datetime t => t.constructorText
  | .uuid u => s!"UUID('{u.text}')"
  | .record r => r.label
  | .standIn face _ | .provider face _ | .unsupported face => face.text
  | other => other.typeName

def Host.writtenTexts : List Host → List String
  | [] => []
  | x :: rest => Host.writtenText x :: Host.writtenTexts rest

end

/-- Texts, decimals, times and identifiers as keys are bare, everything else is as written. -/
def Host.keyText : Host → String
  | .string s => s
  | .decimal d => d.text
  | .date d => d.text
  | .datetime t => t.text " "
  | .uuid u => u.text
  | other => other.writtenText

mutual

def Host.isWritable : Host → Bool
  | .int n => (Numeral.integerText? n).isSome
  | .tuple items => Host.areWritable items
  | .list items => Host.areWritable items
  | .pair a b => Host.isWritable a && Host.isWritable b
  | _ => true

def Host.areWritable : List Host → Bool
  | [] => true
  | x :: rest => Host.isWritable x && Host.areWritable rest

end

end Stencil
