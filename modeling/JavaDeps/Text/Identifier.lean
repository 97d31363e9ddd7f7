import JavaDeps.Text.Letter

/-!
# Identifiers

Which texts are identifiers: a character that can start one, followed by characters that can go on
with one. The ASCII part is decided directly.
-/

namespace JavaDeps.Text

/-- Code points from 128 on that are letters or can start an identifier, but not both. -/
def identifierExceptions : Ranges := .ofGaps [
   "lF$^o+$_0$^cY&d(%^e>$8$TF%'^wQ$e2$<,1&nsZ-itJ)d*%_%$$$$$$$$$$$$$$$b%%d4Xe'$+$_7(au=^Y"]

/-- Code points from 128 on that can go on with an identifier and cannot start one. -/
def identifierRest : Ranges := .ofGaps [
   "`/$g1^Z:$a:(aHP$$$%$%$$^2.SB)$^O*%)%%$'%-:$A>^E.2-D,,$;'$,$&$(N&^&+M;$DY&$5$*-%%-4&[$$*%%%&,$-",
   "%%-1$%&[$$('%%&&$7/&$.&[$$+$&$&7%%--)$&[$$*%%%&*&-%%-5$^%(&&$',$1-3(Z$$*$&$'*%.%%-4&[$$*$&$'*%",
   ".%%-3'Z%$*$&$',$-%%-4&^0$')$$$+)-%%^'$$+/+$-^A$$-.)%-^(%)-.$$$$$'%T7$%(.$G,$^N7$-/''&$&%*&'0/$",
   "2i6&,,m3'?&@%A%^*C,$%-D&$._@$_'/'/--_1.^&(^#-$@%.)-91$3T(R4.-4,/&A0%-O1S7+-)-_'&$8'$)$%&`>^*g(",
   "%6$_,0'$&/^tT&_>$^JCfL)^S%nnQ-^/$'-C%^:%aO$&$'$:('$^=%U5--)50.?+<0O'R12-.$--R1/$+%%-D&U$$&%%(%",
   "$$L((%a++$%%-hv<$iX333&%;&`8-H$^H%gF$`Z$_F(b+-t[&$%('K&'$_V%g&'+-c>%_J.T'_+&X2B.%%-'P.*$P-)&G1",
   "$-(%O$/&S1+'$/^</)$_Q/(-)'Z%$*%%%&,$-%%*&(`85,-'$^;7/-`M*%,>%^<42-^;0+-^=2'-a12_V-^0)$%%'$$$%/",
   "-_(*%*&$?-K*$'+$,.Q3d)+$+3-[9$1_+)&$$%$*$$+-S($%$(+-bO'heJ-^@-I(^%*<-nO$$Z*'^;$.%hk6%_sBQ%:f@(",
   "&)++%*A'_E&uTUe[Z'U+$1$9($2tT*$4%*$%$(aD*,-c1$^'1w/*^W*(-_t>-lgpFa/"]

def startsIdentifier (c : Char) : Bool :=
  let n := c.toNat
  if n < 128 then (65 ≤ n && n ≤ 90) || (97 ≤ n && n ≤ 122) || n == 95
  else letterRanges.contains n != identifierExceptions.contains n

def continuesIdentifier (c : Char) : Bool :=
  startsIdentifier c ||
    if c.toNat < 128 then 48 ≤ c.toNat && c.toNat ≤ 57 else identifierRest.contains c.toNat

def isIdentifier : List Char → Bool
  | [] => false
  | c :: rest => startsIdentifier c && rest.all continuesIdentifier

end JavaDeps.Text
