/-!
# Output sinks

Where the lines that a program writes go. A sink may refuse a line or fail to pass on what it has
taken; what it then holds is up to the sink.
-/

namespace Rockstar

/-- A sink with states of type `σ`. A refusal carries its reason. -/
structure Sink (σ : Type) where
  write : String → σ → Except String Unit × σ
  flush : σ → Except String Unit × σ

namespace Sink

/-- The sink that takes everything. Its state is the text written so far. -/
def collect : Sink String where
  write text taken := (.ok (), taken ++ text)
  flush taken := (.ok (), taken)

/-- What a limited sink has taken. -/
structure Taken where
  text : String
  lines : Nat
  deriving DecidableEq

/-- The sink's state with one more text. -/
def Taken.add (t : Taken) (text : String) : Taken :=
  ⟨t.text ++ text, t.lines + text.toList.count '\n'⟩

/-- A sink with room for a number of lines. It refuses, as a whole and with the given reason, what
would go beyond them; and it cannot pass anything on if there is a reason for that. -/
def limited (limit : Option (Nat × String)) (noFlush : Option String) : Sink Taken where
  write text taken :=
    match limit with
    | some (room, reason) =>
      if room < (taken.add text).lines then (.error reason, taken) else (.ok (), taken.add text)
    | none => (.ok (), taken.add text)
  flush taken :=
    match noFlush with
    | some reason => (.error reason, taken)
    | none => (.ok (), taken)

end Sink

end Rockstar
