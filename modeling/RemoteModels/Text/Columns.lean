/-!
# Columns

Cells of a table are filled up with spaces; their width is counted in characters.
-/

set_option autoImplicit false

namespace RemoteModels
namespace Text

/-- Fills a text up to a width. -/
def pad (width : Nat) (s : String) : String :=
  s ++ String.ofList (List.replicate (width - s.toList.length) ' ')

end Text
end RemoteModels
