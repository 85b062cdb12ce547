/-! Places in a template: the offset counts characters from zero, lines and columns count from one,
and only a line feed starts a line. -/
namespace Stencil

structure Location where
  offset : Nat
  line : Nat
  column : Nat
  deriving DecidableEq, Repr

namespace Location

def start : Location := ⟨0, 1, 1⟩

def next (l : Location) (c : Char) : Location :=
  if c = '\n' then ⟨l.offset + 1, l.line + 1, 1⟩ else ⟨l.offset + 1, l.line, l.column + 1⟩

def after (l : Location) (cs : List Char) : Location := cs.foldl next l

@[simp] theorem after_nil (l : Location) : l.after [] = l := rfl

@[simp] theorem after_cons (l : Location) (c : Char) (cs : List Char) :
    l.after (c :: cs) = (l.next c).after cs := rfl

theorem after_append (l : Location) (u v : List Char) : l.after (u ++ v) = (l.after u).after v := by
  simp [after]

@[simp] theorem next_offset (l : Location) (c : Char) : (l.next c).offset = l.offset + 1 := by
  unfold next
  split <;> rfl

theorem after_offset (l : Location) (cs : List Char) :
    (l.after cs).offset = l.offset + cs.length := by
  induction cs generalizing l with
  | nil => rfl
  | cons c cs ih => simp [ih, Nat.add_comm 1, Nat.add_assoc]

end Location
end Stencil
