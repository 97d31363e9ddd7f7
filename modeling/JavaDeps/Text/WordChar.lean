import JavaDeps.Text.Ascii
import JavaDeps.Text.Letter

/-!
# Word characters

Letters, digits and the underscore. The ASCII part is decided directly; outside ASCII a character
is a word character when it is alphabetic or carries a numeric value.
-/

namespace JavaDeps.Text

/-- Code points from 128 on that are no letters and carry a numeric value. -/
def numberRanges : Ranges := .ofGaps [
   "`*%($%&v3-_7-`>-d0-_", "'-')^V-_'-_'-%)^X0_$", "-+*^Q-^R**6^W-^J-_'-", "^07aK-^0-iF7l=&a.-)-",
   "9-b2-_1._V-)-`.-^@-_", "7-)-o7$&))-`>V%(iM^&", "^89h&Au4$jG$<,1&c$'_", ";-A+$2C-J2ne--`4-bF)",
   "_K-I-`>-9-^@-d*-ij,-", "eHP/^#4%b[>G'@$+$_7(", "`B-mA+<*J,^5(9)_Q%%3", "%Q^*,W%A&^5(^R+;+L*b",
   "P)S-b,B_O-M'^Z*_7A_1", "-^&-_A-*7a:-c#-_'-cC", "-^P-^P/d86^G-j4@`[-^", "0-f88oL^Ygk*-^@-_7-$",
   "*k#:l]:7^V<p=U^hB-d:", "-w&,_1-jU^%$&$'^6P$2", "mU0^oV-"]

def isWordChar (c : Char) : Bool :=
  if c.toNat < 128 then isAsciiLetter c || isAsciiDigit c || c == '_'
  else letterRanges.contains c.toNat || numberRanges.contains c.toNat

end JavaDeps.Text
