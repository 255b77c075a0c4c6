import UtilityClass.Text.Word

/-!
# Outputs

What a run prints is encoded for its standard output.  An encoding need not have every character,
but every encoding has those of ASCII.  A text is encoded as a whole, so an output takes all of it
or nothing.  Bytes of an argument that stand for no character come as characters that the output
does not take.
-/

namespace UtilityClass

/-- The standard output of a run, by the characters that its encoding has. -/
structure Output where
  takes : Char → Bool
  /-- Every encoding has the characters of ASCII. -/
  takes_of_isAscii : ∀ c, Text.isAscii c = true → takes c = true

namespace Output

/-- The output whose encoding has every character. -/
def unicode : Output := ⟨fun _ => true, fun _ _ => rfl⟩

/-- The output whose encoding is ASCII. -/
def ascii : Output := ⟨Text.isAscii, fun _ h => h⟩

/-- Whether the output takes a text. -/
def carries (out : Output) (t : Text) : Bool := t.all out.takes

end Output

end UtilityClass
