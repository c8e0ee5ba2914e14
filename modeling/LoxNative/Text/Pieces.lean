namespace LoxNative
namespace Text

/-!
# Pieces between separators

Cutting a text at every occurrence of one separator.  A text with `n` separators has `n + 1` pieces,
some of which may be empty; joining the pieces with the separator gives the text back.
-/

/-- The pieces between separators; there is always at least one. -/
def pieces {Symbol : Type} [DecidableEq Symbol] (separator : Symbol) (text : List Symbol) :
    List (List Symbol) :=
  text.foldr (fun symbol done =>
    if symbol = separator then [] :: done
    else
      match done with
      | piece :: rest => (symbol :: piece) :: rest
      | [] => [[symbol]]) [[]]

end Text
end LoxNative
