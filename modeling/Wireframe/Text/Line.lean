/-! Segments are what stands between line feeds. Lines are the segments without
their carriage return, where nothing after a last line feed is no line. -/

namespace Wireframe.Text

def segments (text : List Char) : List (List Char) :=
  text.splitOn '\n'

/-- Removes one carriage return at the end. -/
def dropReturn (segment : List Char) : List Char :=
  if segment.getLast? = some '\r' then segment.dropLast else segment

/-- A line ends at a line feed, with the carriage return before it, or at the end of
the text, where a carriage return stays. -/
def lines (text : List Char) : List (List Char) :=
  let pieces := segments text
  let last := pieces.getLastD []
  pieces.dropLast.map dropReturn ++ if last = [] then [] else [last]

end Wireframe.Text
