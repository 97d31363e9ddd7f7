import JavaDeps.Text.Ranges

/-!
# Printable characters

Control and format characters, separators other than the space, and unassigned or private code
points are not printable; a quoted text shows them by their code.
-/

namespace JavaDeps.Text

def unprintableRanges : Ranges := .ofGaps [
   "_1D/$iA%)'*$$$7$cZ$I%U%&$Z+>')49$`8$S%^%%^O1^%%T%2$?%$$.(B,^4$_R$+%%%9$*$$&'%,%%%'+$'%$(%<%&$)",
   "'%%9$*$%$%$%%$$('%%&&$*'$$*4-&$,$&$9$*$%$(%-$&$&%$2'%/**$&$+%%%9$*$%$(%,%%%&*&'%$(%5-%$)&&$'&%",
   "$$$%&%&&&/'(&&$'%$)$18(0$&$:$3%,$&$'*%$&%$%'%-*9$&$:$-$(%,$&$'*%)%$'%-$%00$&$V$&$)'3%=$&$5&;$,",
   "$$%*&$')$$$+)-%&/^$'@H%$$$($;$$$:%($$$)%-%'C^2$G'J$G$2$0H`>$$($%cF$'%*$$$'%L$'%D$'%*$$$'%2$^#$",
   "'%^-%C&=)^@%)%h0$?&^C*9,;,7/0$&$%/^H%-)-)1$.)^C*N(^0-B$/'/'$&M%(.O'=).&^(%^+$@%.)-)1%BT^7&R$_%",
   "+^&&2&^&*N%.+N(f8%)%I%)%+$$$$$$$B%X$2$1%)$6%&$,4;+R4%%>$0&D2D2_='hG<.8^^P%C$c*(P$$($%[*%1;,*$*",
   "$*$*$*$*$*$*$_/E=$^C/`N=/(^)$^@%^Q(N$^H$^>/R$n`W&Z,c)7`0+`C(%$$$(;^%&-)[+^0+/)_%.A&^8$.'D$Z,1%",
   "-%^Q;?-)%)%),*$*$^&'_/%-)cm#/:'T'^bX`s3c;%^TI*/((=$($$$%$%$_.3dQ%Y*$CM)V$6$''($_8'`6&)%)%)%&&*",
   "$*0%%/$=$6$%$2%1E_,(&'P&^B$0&$RQ_3@&T2?'G,A(N(A$H'1M_O%-)G'G'K+W./$2$*$%$.$2$*$%^-b=,9-+;)$M$,",
   "^/)%$$O$%&$%:$^2+,S6$%(D&>($^*['7%U$%(+$&$@%&'-*,*^*CJ'/,Y&@%>(=*'/*^:^3ZV0V*Q+-b,B$M$&%%^8K+M",
   "9=I?7:,^8'G,^($(0<*-)X$5+J,^J$7.5$O^+*$$$'$2$.)^%(-)'$+%%%9$*$%$($-%%%&%$)$(*%*&(_<^F$(A^2+-_W",
   "Y%IE^/.-)06^$)-Y>%2':`1^&^N^=/+%$%+$%$A$%%/,-^0+%Q%.>^2+^=0^3aF,$P$1-@&C%9$1^3*$%$O&$$%$,+-))$",
   "%$H$%$)*-b<<`/$2U0m.^P^Y$(.`<^m1^M0oP_h%g0b^=f[*B$-'^;$-)A%)-^0--$*$8(6i'^E^O^5'^#*4^*(.%1`nH+",
   "rLM,bcN'$*$%$b)P&4'+cY^g?^U(0&,*-%'_sAQ%:,_%^&a5-J%^4+^Z8^0_K7/^A,<_8^?$^1$%%$%%%'$/$$$*$^+$'%",
   "+$*$?$'$($$&*$bZ%b*%i52($2p8B`Y*$4%*$%$(`MP&1%-'%bFB4^$($rV*$'$%$2$`=%3L^6'-'%jO^.^6^'`:'$>$%$",
   "$%$$-$'$$$$)$'$$$$$$&$%$$%$$$$$$$$$$%$$%'$*$'$'$$$-$4(&$($4W%aMO'^N/2%2$2$H-`&[@0O',*%1)_Kn2(3",
   "&0&_%/^C*/'$2/'[+-)K+A%%^8bZ/1%(&(&*,@&.()--)++*,_D$ZH-o'uz>C_iT*`V%`h(1ah)^u<f@w;_wHjyv+a/`uq",
   "C"]

def isPrintable (c : Char) : Bool :=
  if c.toNat < 128 then 32 ≤ c.toNat && c.toNat < 127
  else !unprintableRanges.contains c.toNat

end JavaDeps.Text
