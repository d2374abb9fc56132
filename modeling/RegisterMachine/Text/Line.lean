/- Lines of a text.  A line ends at a line feed, and one carriage return directly
before it belongs to the ending. -/

namespace RegisterMachine
namespace Text

def dropReturn (line : List Char) : List Char :=
  if line.getLast? = some '\r' then line.dropLast else line

/-- What follows the last line feed: one line, or none when nothing follows. -/
def openLine (rest : List Char) : List (List Char) :=
  if rest.isEmpty then [] else [rest]

def lines (text : List Char) : List (List Char) :=
  let pieces := text.splitOn '\n'
  pieces.dropLast.map dropReturn ++ openLine (pieces.getLastD [])

theorem lines_nil : lines [] = [] := by
  simp [lines, openLine]

end Text
end RegisterMachine
