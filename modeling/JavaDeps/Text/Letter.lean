import JavaDeps.Text.Ranges

/-!
# Letters

The letters of all scripts. The ASCII part is decided directly.
-/

namespace JavaDeps.Text

def letterRanges : Ranges := .ofGaps [
   "_[$-$'$(:$B$e%'/1(*$", "$$_2($%%'$$)$$&$$$7$", "^=$_<+_W$I%$)L^1>''P", "NF%$^M$$2%*%-&%$3$$A",
   "@^C.$;D,%'$(9'$,$&$:", "<*.(;$)4M^$Y&$5$*-23", "'+%%%9$*$$&'&$3$0%$&", "1%-$+)'%%9$*$%$%$%B'",
   "$$6&3,$&$9$*$%$(&$5$", "2%:$.+%%%9$*$%$(&$A%", "$&2$4$$)&&$'&%$$$%&%", "&&&/9$W+$&$:$3&$=&%$",
   "%%A$'+$&$:$-$(&$B%$%", "2%4,$&$L%$3$(&+&;)(5", "&;$,$$%*^$S$%/*^$%$$", "$($;$$$-$%,$%($$8'C$",
   "^)+$G>(_$N7$3)''&$&%", "*&'0/$4I$$($%N$bS$'%", "*$$$'%L$'%D$'%*$$$'%", "2$^#$'%^-H33^@%)&gU%",
   "4$=(^5)+*5061510$&2W", "F$'$^-^C*(%E$$(^0-BT", "A%(.O'=Y:,X^<$^GR4+Y", "A0%-O=GL&-G%,*N%&L'$",
   ")$%&$(`8^*aU%)%I%)%+", "$$$$$$$B%X$*$$&&$*&'", "%)'0(&$*_%$0$30^O$'$", "%-$$&()$$$$$$'$.%'((",
   "'$W%^n'a$)'&%/I$$($%", "[*$3:,*$*$*$*$*$*$*$", "*^:$e0%M((%'^@)&$^D$", "'(N$^H4CS3e[`vH^*iyL",
   "^-Q%aL&3-%7R3B%^0T,%", "^Q%^*(%$$$(;3$&$'$:@", "W1U^()&$$%.?-:<@*R?$", "3($--($L:&$+7:&$&U$$",
   "&%%(%$$$;&%.*&/)%)%)", ",*$*$N$1)_$@cm#/:'Ta", "y3c;%^TI*/(($$-$0$($", "$$%$%$^VDc85^*%YK/_%",
   "($_8G=)=.^C&)%)%)%&F", "/$=$6$%$2%1E_,cR@&TR", "C07$+)I-A%G'+S_O5G'G", "'K+W/.$2$*$%$.$2$*$%",
   "^-b=,9-+;)$M$,^/)%$$", "O$%&$%:-:,B^+6$%-9-=", "^0[)%^*$2'$&$@M@&@F+", "$?>Y-9-605^X^3ZV0V0G",
   "c)M)%^8@-$+9M5Q8>:/X", "^#%%$0PC<=G@$%$+F&$/", "S1'8$$$F5$<^>*$$$'$2", "$-*RI+%%%9$*$%$(&$5$",
   "/(_OX5'7&AS7%$$`0RL'", "GS7$^%N0$^1>H*`1O_%^", "*B+%$%+$%$;2$$$^H+%J", "3$$$?$-K*$8$.Q6$5^3a",
   "F,$H4$TA^Z*$%$I8$<)$", "%$C1$bM6`5$^9m-a%`<^", "m1^K2oP_h%g0b^=f[*B4", "^94A5S3'B8(6i'^*_1^5",
   "($^,0^*%$$?`nH+rLM,b", "cN'$*$%$b)P&4'+cY^g?", "^U(0&,*-`l(^?$^1$%%$", "%%%'$/$$$*$^+$'%+$*$",
   "?$'$($$&*$bZ%<$<$B$<", "$B$<$B$<$B$<$+^_7Be<", "P-*3$bGA5Os1*$'$%$2$", "`=^%^.*$r*'$>$%$$%$$",
   "-$'$$$$)$'$$$$$$&$%$", "$%$$$$$$$$$$%$$%'$*$", "'$'$$$-$4(&$($4_nBuz", ">C_iT*`V%`h(1ah)^u<f",
   "@w;_wH"]

def isLetter (c : Char) : Bool :=
  let n := c.toNat
  if n < 128 then (65 ≤ n && n ≤ 90) || (97 ≤ n && n ≤ 122)
  else letterRanges.contains n

end JavaDeps.Text
