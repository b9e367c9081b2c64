import TriplePass.Text.Lines
import TriplePass.Text.Utf8

/-! # The text of a file

Sources, coverage listings and captured output are read alike: decoded with replacement, and with
every line ending turned into a line feed.
-/
namespace TriplePass.Text

def ofContent (content : Bytes) : List Char :=
  foldNewlines (Utf8.decode content)

end TriplePass.Text
