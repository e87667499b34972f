/-!
Cutting text at a separator and at the ends of its lines.
-/

namespace EndpointPreview.Text

def pieces (separator : Char) (s : String) : List String :=
  (s.toList.splitOn separator).map String.ofList

def withoutReturn (line : List Char) : List Char :=
  match line.reverse with
  | '\r' :: rest => rest.reverse
  | _ => line

/-- Every line but the last ends in a line feed, and a carriage return before it belongs to the
ending. An empty last line is not counted. -/
def lines (s : String) : List String :=
  let parts := s.toList.splitOn '\n'
  let ended := parts.dropLast.map withoutReturn
  let last := (parts.getLast?.filter (· ≠ [])).toList
  (ended ++ last).map String.ofList

end EndpointPreview.Text
