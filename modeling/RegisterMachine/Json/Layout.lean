/- Writing JSON in two layouts: everything on one line without spaces, or one item
a line with two spaces for each level.  Items are written texts already. -/

import RegisterMachine.Text.Numeral

namespace RegisterMachine
namespace Json

/-- What a layout puts before an item at a given depth, and after a colon. -/
structure Layout where
  lineBreak : Nat → String
  afterColon : String

namespace Layout

def compact : Layout :=
  { lineBreak := fun _ => ""
    afterColon := "" }

def indented : Layout :=
  { lineBreak := fun depth => "\n" ++ String.ofList (List.replicate (2 * depth) ' ')
    afterColon := " " }

/-- Items between brackets, the brackets standing at the given depth. -/
def enclose (layout : Layout) (opening closing : String) (depth : Nat)
    (items : List String) : String :=
  if items.isEmpty then opening ++ closing
  else
    opening ++ layout.lineBreak (depth + 1)
      ++ ("," ++ layout.lineBreak (depth + 1)).intercalate items
      ++ layout.lineBreak depth ++ closing

def array (layout : Layout) (depth : Nat) (items : List String) : String :=
  layout.enclose "[" "]" depth items

def object (layout : Layout) (depth : Nat) (members : List (String × String)) :
    String :=
  layout.enclose "\x7b" "\x7d" depth (members.map fun entry =>
    "\"" ++ entry.1 ++ "\":" ++ layout.afterColon ++ entry.2)

theorem toList_enclose_cons (layout : Layout) (opening closing : String)
    (depth : Nat) (first : String) (rest : List String) :
    (layout.enclose opening closing depth (first :: rest)).toList =
      opening.toList ++ ((layout.lineBreak (depth + 1)).toList ++
        (List.intercalate (',' :: (layout.lineBreak (depth + 1)).toList)
            ((first :: rest).map String.toList) ++
          ((layout.lineBreak depth).toList ++ closing.toList))) := by
  simp [enclose, String.toList_intercalate]

end Layout
end Json
end RegisterMachine
