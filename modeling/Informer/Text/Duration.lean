/-!
# Durations in messages

A duration is a number of milliseconds. It is written in milliseconds below one second and in
seconds from there on, with as many decimals as it needs; the empty duration is `0ns`.
-/

namespace Informer.Text

/-- The decimals of a number of thousandths, without trailing zeros. -/
def thousandths (n : Nat) : String :=
  let digits := [n / 100 % 10, n / 10 % 10, n % 10]
  String.join ((digits.reverse.dropWhile (· = 0)).reverse.map toString)

/-- The written form of a duration in milliseconds. -/
def duration (ms : Nat) : String :=
  if ms = 0 then "0ns"
  else if ms < 1000 then toString ms ++ "ms"
  else if ms % 1000 = 0 then toString (ms / 1000) ++ "s"
  else toString (ms / 1000) ++ "." ++ thousandths (ms % 1000) ++ "s"

end Informer.Text
