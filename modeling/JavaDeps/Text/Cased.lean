import JavaDeps.Text.Ranges

/-!
# Cased letters

Letters of a script with upper and lower case, and the characters that do not count when it is asked
whether a letter stands next to another one: marks, modifiers, apostrophes and the like.
-/

namespace JavaDeps.Text

/-- Code points from 128 on that are passed over between letters. -/
def passedOverRanges : Ranges := .ofGaps [
   "_Y$'$$$'$%%eR`8'%'$,%$$a:*`G$($TP$$$%$%$$O$.)-.$$F$-83$^O+$-$'D$$$A>^E.^$.'$%$;;N&O$*%)+L^$Z$$",
   "$'+'$&*-%0$2$^$$''+$7%=$%%^#$'%'%%&&$A%&$.%^#$'($%'$7%9)$$^$$%$$'+$*%.%A$^'$/$U$&$Z$$&(&$'*%.%",
   "@$^$$%$)$(%7%?%^#%''+$7%@$^2$*&$$^D$%*.,^L$%,,$$)^4%>$$$$$Z1$($%(.$G,$^P'$)$%%%<%'&3'0$%%)$2$^",
   "H$gI&mE&@%A%A%^*%$*+$%.&$($P(V$^+%E$_'&'%,$)&`S%%$^$$$*$$$$%+)-%$J$+BT'S$$($$($K,/%C'%%$&[$$%&",
   "$$&^$+%%^*)^<&$0$*'$)$&%U^)0$E^OdQ$$&.&0&0&0%/(+%-$%$%(T($-$$0$30VD^rS%^[&_.$2$^JCR$e0$G'&(($^",
   "G)^G&moW$rX)aM$^L'$-$$?'^:%1E^8$:&^Q&&%+$&$'$<%($_H%=50$I+<.Q&S$%'%%4$8%^,)%%%%/$+$F$.$V$$&%%(",
   "%$$>$1%(%$$^N(,&_*$%$'$hvH$_D4g&3&$/3E$%$_Z$*$)$.$F$$$R$P%^-$8&f#$`Z$_F(o&)$M$,g/&$%('K&'$_V%g",
   "&'cP%_J.T'_,$Y2L$%%-&T'%%%$'$-$U&G($+^($/%W,-'%$^I&%$$%)$_Q$&+8%^#%&$H*&(`;+%&$$:$^>)$$'%$%a-'",
   ")%$%>%^?+%$$%^T$$$%)$$^O&%'$(aB,$%a?%$$'$_A'%%'$C-K)%'+$,)%&Q0$%d**$)$$^<9%*$%$%_+)&$$%$*$$^2%",
   "&$$$c(%`b7,ebM(^%*,'o,$^)4^*%$%fnG'$*$%^wI%$'_s=Q%:fB&,3%*A'_E&^aLZ'U+$1$9($2tT*$4%*$%$(aD1c=$",
   "^''w9*^W+^n[(lhqZ$A^J_1a/"]

/-- Code points from 128 on that are letters of a script with two cases and are not passed over. -/
def casedRanges : Ranges := .ofGaps [
   "_[$-$'$(:$B$`;$''`H$>`8'%%&&$$)$$&$$$7$^=$_<+_W$I,L^pQI$$($%N%&hP^@%)^e/,*N%&^*O^)0$E^OaU%)%I%",
   ")%+$$$$$$$B%X$*$$&&$*&'%)'0(&$*aD$'$%-$$&()$$$$$$'$)'$%'(('$4C&%k6W^^R_-%^Q)'&%/I$$($o`NQ5?_7^",
   "8$:&'$^%(%$$$(>%&$k:N(,*^:hvX*/(o*=)=qT^:^JG'G_%.$2$*$%$.$2$*$%^]8V0V^s<^*it<^*lbT^?$^1$%%$%%%",
   "'$/$$$*$^+$'%+$*$?$'$($$&*$bZ%<$<$B$<$B$<$B$<$B$<$+^_7-$7^k8^.^bD=)=)="]

def isPassedOver (c : Char) : Bool :=
  if c.toNat < 128 then c == '\'' || c == '.' || c == ':' || c == '^' || c.toNat == 96
  else passedOverRanges.contains c.toNat

/-- A letter of a script with two cases that is not passed over. -/
def isCased (c : Char) : Bool :=
  let n := c.toNat
  if n < 128 then (65 ≤ n && n ≤ 90) || (97 ≤ n && n ≤ 122) else casedRanges.contains n

/-- Whether the first character of a text that is not passed over is a cased letter. -/
def startsCased : List Char → Bool
  | [] => false
  | c :: rest => if isPassedOver c then startsCased rest else isCased c

end JavaDeps.Text
