import JavaDeps.Text.CharacterName.Packed

/-!
# Names of characters: scripts in use, symbols and shapes

The packed names of the characters from 0000 to FFFF.
-/

namespace JavaDeps.Text.CharacterName

def basicPlane : Part where
  length := 205193
  packed := "GNsn@b6s].o&0w=!eN6UFxo4YB+>nC97J-(ZR@g7yqp;.,90_R(l>mgkjX.ME[AlR: %=hg^i$W*]S%RCnybZ Y
vi)|p~)-v2brCVU0r4hC>V4vk=t)k/j|w3>>SvQdBCNNm;v-Ziy=Dr=Cv!o|!,rg)b;Kxlm_8c#i7fA/[/<N$EPiV=G5L.]cYa,6
k+637.:o.#>J0#G46&]ZAAepO,|M.s;9q<%B6gcnlLDrwQ_cWBi!zusJ(|_fKjh& BDfq.@axWFmd:&[|r1|FP1:b@?1wlm/c-3J
Qd3]^)rG[nBz.+|u=nWVLX_x qnR,OGnm,:akzk2$$g-k-H%Pkj@[+fUo&O;$Qc(.>~.2Jfn#yXH =$<tNo*yr=w;T)]wd0g:a(7
QshKh?Z*izBpC[rhtsW1 g1UtKVadCXJ&(::sWBQPH[Q?kWuKCku[Al9T:!G76;R[Rkpybrh^G)8xVWqN&o7@v.vl>w)za+R-T;
v#*>;v*2n9m#B9_4UG-fj7TCfq~ZwG^oinGZdv/khj/B-DL+[;wJsH+H+!@UcKC|$RyFkXSe0W1_>>>a,|b<1|Ym!*1+o:WB?p~v
yRo+5.vj[?so;XW|(,scH@M|zO<-:H6@NpFSUu3d0QFplS&I>0yY3A3]> ;^S&|G3URmQ)Tq57 ZuDjY2DL%swv((nE Y+Wa^7*l
BO(^gMm=ImR;~!D3q|s[#u@Y.e(9;gSe:T2yAGGW1x0<qlcVE@j=@Cy:n5J;L~;zs28p!;f/Ad4BV%rnZQc;)_F:5]U Ubenh%2y
6<<My 4fWt3_M;oDzm2kIMOOsP?bdO4OclegM_5b/GvA#$(t5eR+.mA)9guy vDD@sZpzR>>V$:Fri$>!kXp7x&;PbTBaq^,UvnL
0i8=1ng3.4zE#NNXMChe.R]Hd3(j2*m8VxoX=L%<K]TEZBE!]9R^oZA/Mu>/7lNpG&lDqM|?b!YJrrPaao%bV=JM0a(.HJNbu
Q[.;h@Q>|3^fm5;)^TrE A..*hd:5|iF%/DqF%e!#qOR*od=j@AuoK<DSYj3UTC[0r:vIJe3y1yV#ng_7aWJo.8ET4L]Bz 1%,Y1
X-8m~~mua%K$(+ws8msvc4~d&tb $@e;Bc?+m!L_>=^>^*FSVOdCiG+Ehs>Ba74rh#YhS%&aXikBX$RsFd*:KaTwM2C(Vf6VPA|#
4E+A~w*?L8[jE?k((MkaSq=APuH4)=)S9Mzr-+)FZyiCW6U(Vec?GGu&1zn@P2Zzr#XO^UBXviGC%=LPo1zmW6dHR woLw+h:ba]
r&8G;OVm>mbC0=@q|F1b4E*#_so]XA(57<b@&:!$]2Nni*v>X2(Yac/<^CYZ:at@7tC1d(7Dy2it0&[g&m6obePnab^L7**ffdS
t_fD2yxW3b)eEiRGmARXfDGn5kmp1Ac[O 1[M<Ls(g,Ujvnkog#fKJ^VTg~_eZ*d&P004ZV(ddqs7uDADY^fZ0jt7wAM/7a$X)]~
Kp%3S)Gtppej~aqPfXuHg:-N46FDkSD2h2fzn Yz3h.kpkRw/e8h!ry,iUAe5BM;!IXFH.4E%%]IBE;C50Yknjbl--sDl.Ypp2ka
t(qNe~*LE(7H5x)mLM9r/2u#8Hge rV$cZ/-Yo&(SDQTDZ[yPv:t:[=:l]@r&3N@hrM;3U3(:Chjs-_GUA1jrUZ|>$8*dOFw
m/(#$BAjgHYomj=T#fj@e_Z#IMp8=X3IMQwI.iB*H1YbmD56fxiW2PDHM<$=![udJgT![u[bOY6WLh=a[;*!vqF1Uc5KBh3zuX3
D#:Sqp?.w:lVCO]y*Ow>*9 g.6&jf|cfS|f2j.r$L2V)c<3(#$o~MO*t8sFZzG=/k#ZJdR~nGR[0v:V%a F1g1NTG]$c8H,E%F
u Tkt9pA4fsuoZv>!Ak&Sh$A]hBvWiY|/fQJdnv71VNn_cRb-~BL9dBC?ChL|)7xx_~ $|H$a(V~EwqH7h9bkX)e7DVi-9=.cB
4<;:QK4TV04fqxfXC!knMMq[(&Mu!?,72L;K[>F8.p=qwD6gx&#u*k1>)1@zK17?0P&-J@,;XqBKs$U1GJu5*u#<T5:gEOvPVWeA
8/#JGhsZnP<U4 h>KZ1Y:ToVM@|:RpFgbNTEm<[ l>wD,x|t[~j%^98! o8B^99XpgSt&0)^Wz5]1?4aF%%C)&Z>7F%8!]^$QwF:
OL^Ju2Pzh4^49Cky:<qw=F|=6Bg7Ap58:aEtS~1^jDQuhZt<0lnv>%&2/;?+s%TQRwoj,fVc]w7Ugx8v=FYH.UfNP<tyU_@UqKf$
i>Ep#2TO~iRlDtyI#$cM6 =Y>E]bZ2AsZL!>W! V9]RGfCMtkH+-Ax8v#9j0?[s@dwUbTx-E75cvqEX>|:b 0>Ag<;7Z[6KQ,
d*(:OychMUeUd_Vn-G%B!U=~n~REIVa[@(CmYg)):GBKLk(Uk$taRd&kD*#$)&N(<W1LB&ESiF;7I0l*RQs.#Eymv,ncE<9@qeSQ
W|v+ml@aTvJp*grzbY20ikY(<5#<x<g|^[H=@%#wpw1fy!(?)s;t4KKoAH#bzmTo6bj3jX#wpf:U1LNHJj|6HK0XM<n$wNOps-
G(:u*Xf4%%n-_wO:_7bRa4y7q$I6YxpyQz2q:Gz?T,Xd@Iu+MdG&~q%+/+=y*R.%oy<Xh~LkX4@-6tKckrEzj.WZAvOqhQv%4UpR
wGs:~e^a+3|+  . t&Y=]^[9)e<jzZjj+G%C 1L;rtHa?d2G0f?j0dGOc$wg:W)E8!_[z/f=WC%Jevk9LWyb^gA%K!zF6l- &^o
S;*Z5lUG&.mP~oh;>FDmMG;ap|Z>xDF>b?+BdLRAe4mPLM40^W-[4z=3IE:y.8i;mde%#PWVumo|K/&E?n|r^bl2V7|HM~EQr>e%
N<m.5z=gb<7F]P(:;KePubDg.Z2|_dk|d*$L|k;|<C<J-)H%watIz|):q8Duc2F!H<+VNAWPZC3H5-IP xL(, CfOA+^ ^+0Y;[W
NZ6Npi]aul]Ld+39g|pGeQKJ~xj[*oL/6@fJ>$0ulJ:=Bc#V%q=xO.ToyK9L.s]BR@:g<i-$5D|%98u0Z:Pn>%E|EQmcR<t)$1^
4]dv!@JA>VVhEB$P&DT#OxoKOXB@;xXyApC#VH1G^cU6^Hmmq)_2>&0YVl3Z/ewdqSh)PtKtbwBoTOpefT!RfwnGioPX?c>4!3Dg
yh_yPI~|22ExL3j*Qkul@W-@Q1wA7Rhfn@P6rZv&?jftpA))-C3muz6%=/ehxJEmypAA~^Y|A.QENWa,ts.o]/HL,-U$hX:KO
B;?!MJSfcDH6#<F!6cBW 0G|ep=r,:TKQaU(C3EPbou:$#0O,m + <v2t*Ql*t*L7ZBqRk=:c*4t6?/Vbw6*T3WAh0zMJS5|S~D
u>6c:G2W<rEPp5PAzZZmDkLE*Qoa>G79,nM] ~-*Nw(#;BLy5R<x[xiOb1c1lNP7~PHbq*z&B12O0FN%|R8*=&|C]|:OGt?6mqy8
ERWD(SO>L/J&sze2[|v:^:v.##s5q]rZ~TX4nwnIZSYoG>58ZU F2b~^s5wZ4u~qmaG(Sm%&JiY/f/?/^,1S)DZYa<wq2_*?P@7
x/aV1<1bX?M6a.H+X|O_ tO&Z+i_ZyEp%2oqctPyYIdvBqVSAmwx>|rw+^6HVaZ!&r4 Yt_?lhhRQMfR+F YbCRdHR,123c6;ez
w$6bzin|jSjl@y%wYFu*_xtm-DR4Sw8hXrLOveo2.MZOrpLeQUHk#WoeHm+<gBY4_jR9KK1I2nP|,[@_WGT+1#jS(&j;ktU4c>hW
IpV,:!FFm~4OAPkBLO RgyZGFmLQgq2X (hX0Qw/t(Xqg$eUkuY/qc+ghRHFDsDw!l n>-$KQV#-nw%Q(JV$qm]2I08lko7k<&p+
6=rBaNsPHY_.fz,+Jc7z~Lozamwx|94ink0,T(3 3_~Aye<h4*Fb:jm.!R5Hb+d2mKf:+p4ew~bYfk~<<|ZlVAh4hgs-<dycIf::
a*~!Oz|)!%qK(^av4 q]N*pZ+qtPuH:U1pFW7+2~KV8(Jm_GZ-5lDm;x#U@wW2@q48>#,blboQJVu.Dl@WXuT)#<<uT[?#?(:]<x
M:_ jnO;1X S>%gP1u>&Na+Ft1F!;NG;Ou_fcwku8jErm_9$TLZ++Ok1nXzXcW(BnTs8pu8ZO~A0k%Q[h*S*auy2:KT.tR5h[wcM
z~<D>IkD.FtJwQ9(OcmS.8kkB4/_ICLoO2p27?i@ZT,Net_ycDHW<s+zk)~@&du7#f%COu_ILT+WJi!s7-.]2gt7 /Yc4L>z3ZqT
N!yWRy(b;_[0ZhoWCj9:e?tI~Hl;%!!Ks^EI+k+L7ZRH($PvHQH7:dY:-M>vJ8/d2OG[~JSD*sh(z-2y:W^-o/_9YzS%]^&U1L52
G@&k>G;|X>M&.b^5LKO#m]cy8!~Vc=gPJMW*ty;:fH|%0Vx>_Xfil#_6k+0SS8a]H$7Y-V?,LxduTgpBilIC+rv)zD+M[&25yqy4
P6;4CZ4t;jSPk?5>:sTMP]qB8@)iB*~!)]Q;&dQrwc.k=vnJS8gmiJv@mp7BMvY=n5i~=>YSH__^W5lO&xI.%%vwEHXWm]Jq4os+
w(;ucflT7$RIV?IM=>#4H[R#Yr=q0ssOc2kg5>;l^yYMNJMz L.hRw8=^bs>h~/vNQW1U_qM[l,Em5v~G0,+/T1Skl%e:kzth[2#
9#ns) ZA__g#+OFb*@pK|h;hlQRnpWhIZq|PJSC,%&DdLBAW5e6y3g8i[D|.N<g#z,&BFLQJTY-^zv4=hX+dBedb@Nbq|_D_K$c
L$Ikow)(68q.uNHi(VD,.WJ__M]sDnuIgEXQ2N+*C41:K29:t8VN@5tm+UGV675s)uo[l!%0PnJ13eBCR^taCpY+cn?+Ccv%+H3*
M=fN]mi.$fLJ?CsZ++Fkm)MT]];=ow/?(s-,qDRV&G#fCQ7x+taZtn?P%P1/[E8tqI~C4~1xY[Nok-P>A[0X15D:#_X^(_?@L-k>
mqAqinK?r<e:kYz2/UR6M@RwP?j8(?0a%f%x(y.R@Hn4^L4*4$9c+*Jo9tBT?l0)KFs.Qp.DJr?oD):rv@O9_GVpM@oy$ga(P>Tl
L&R.|t<%6>mA5QRYmVa4gyiBgzRrG7@/$B=%#=F@/@k$J+O65Lfbc|oG<t)BZe,q7e7pHdeo[ WDg.8Nn>gDCM),S)=3sJ2@)eo
0^Y]@.[y43pJz)K0m:5|Tp:Nzw(N<?.D0ZYIf% @4-E1*wzMj0<ea#HohLj<:5CNCwV#O*Hcbu7~[p[2V^Ef3@zZn$Ssh,>8i,P<
hR33*^[Ux$:<Qp)iv.6w<>HLpSf n>jElq+Gq(z4~IUY/+|lM$#8nD5E E|zF0Uh/5p?2>)YwNQAV-V2%J=z D-i;7_!;1,^;?C]
W1MK5wAYg%V#brvLN#becJTKG1^veq-Gc7;sfI?DRpn )wnZ4@p_<Oz7xj #)&20#h6b@OXmSM?-H*4=yeAJb9j?lh/1<)OGUS?N
c!](J[zQgn2a>< dy,;X|_b$IKSMFMJbh-;HM:GrIP6OrFs$Y/h]M+ &~5+n4dwXfI6+BFGch-[>AImdEJS+6c/zb.?j;xcTZr*U
K9m:sDNpU6J[ulPS.>Gt=vUmcX0ArULy+9K<TQ,Y7ky1[jIHj>_z]8ADOC<*FuT=7hTu4|$7[KMvc) 7[&LV>xEgHoPl<vcd%rKz
2k4N/Le,s?EMh|$0?C~pu*Vh)~%W/R>Ftk>FP5QOoP(U&OPrC~QXJi;_RF=nknQI8bF8xE!v5K(Wi)@e#94]sxbEou@XR9_q)uZQ
ftxh0hv*_xckTG3SOkYDsp[qI,v@ [xkO(,$MTCDK<Vr$e$J[:|=Mhao&-2Ok)KB@%(qt3]:Jm%tvQsUQ:.a73C|X.D*%j&E@O+K
kq,#8!sLtsAB]v)GNtH%RP|t<%1^Vlo4>n@tL]_>%K>f#hhh<N3&D^TcqOL9R.4 GgFOzE4k~zyY5c2+EDIXWq2q~j<HEm(%PUit
kN:qp!,(uN#cpq6(p1zL32.N27dM8*D)on[sUT#EM;|_qu<aK<z<~d&6doeq=>)!!Qw1ob;4jboyn/.m1JaOa|kXNv1wx+ZiJ+x,
eau|:YN|^&V=z4F%X~a.u#XwM>Y!w61wkbjgKlp+wqS0 %)QNeacTA)bH:lvRTw3YdOI53z)U3?n/:Bc:L[?GKH+zfV@V=/HF
B:[&/>#$6 3wM(jG~NfMfsE*&ObQwHAZwfp~3Nbq[[e3)-_[ehw4e?RH;$aDu4~xfQ^Q$l1Gnz48m=KPfe0eL/z- iuR,(a$WAO#
y.fPCSmNVeh(T!6pfBl9QC6pT5GtbF# -<A9.9Exvg-]45|9i$058so8pq/jV]ahQjcNPa/seex$;|QaP<n$>xAhBl fWQLyx>J
Q>p!=4:VcR*+!bpw^([@pmPpsLK5~s>GnIkAvHYk GXJhDGzVH8CJ3w>-<Zs0Xd#_nn$_sqk2G>E~~Z1x!ENN x+MfJQ]P|Et]r(
28GWqZ[C,wBqh#.A%kcrzv esIAL ^saPdw#Dbr$YxDDgCxCO^<6UcevI0%r-y/W#z?pa?8D<k$+VPeFTt2U@8Xjy2/aYH.p%U1w
Mw/PLlQm^;]4*3$b-gpj4JgaYOp[SNS@t,n2Sg$92xCpNkLomzhNY@$EIa(#;81BYqp!~Dy eKCKY?m@X/!gH)pW-KX<dyRGn&^
c!eCV[:Rp](Bz.RYfv,KmW*^<8RcWw5ok+ UKQbe W!hda0h3@&+^h)x(y10;*ro8mgboR8&/oC<AqfSRQQei1N=%O;r!6SR$8q
B+f9C03!PMiDvYMg*s+6gu5!538JB~cQ75A@Ds-hB8yx~3sds*zh79Y|eN+*<z1+2*@2F/L-,g<M.<W]N.U7k5~SH9=%Im*gA C:
1PjGSo6 !)$j~wq9*[(T;a+h>oa?^LeHu:m,n__mc=m%5GMr)BM7TVL3/sxhXp8hD8V[8L^H39f0GVew1w8jVG;ziGG[3HY<5ln
C*28-v&F[#b.:g;SW@h6it f@*:If1Rs<Q?NtO-HWAjKlZRc@)y>0X7.q?Ua(S$OrTd5S=YBXTC1X0OP7Lz~n&B.!6Hs_/S;H&A
e&fL-dn)k6LiX0 2xH:-7YYkPoJ$/Mc-dYR[y4X~Y7$,#q0|f;Ob2cCS:]GM@_JxgZV,OKA ?0RX?ikO9-2 %X]JXb#Psq)5E
M!++@4<re|NhTz^@G_*gVyVIywrh0Z$p]_~1|L%%)&M,m&89L7>C1v%bj0kNC~&bIxo$q4w5RgOlGQ|]?PSdf5<%Z!Afn]q,W#lG
s<gW+KVj6<A#Lfe<EbiJ>?ppLK0RWIS[D?T~[ZCD^FJ-ig-*Hm>v-5j+J) *qNB;!m>zthL_r1j^4c@Xz,,oY9TW1_sM;yodHB
L~:QBI|)Nk:#63dsyBVKl%hR]>sB>g16#UtPcK%_5bfSS.n~&wb>|vA-KH-FFMzU^GKh-Yk#R%@My0NOsQJA(8iWcY[0apkce)T0
WeFBJ$+#) !Q5c]E]R5Tv()xsa<k!WSm@J77r7^@8Ec+HG1,GBH70D-3Z>R#M=_hBAe37a;r[@<Fc2#[,R@Y@V %;$W,U=uE@i:f
3!ni(IcF+x0-.&k2!-94z+Nh9x? n&&4%%vth1>nUKXbSHA>X$.@NMnV&a4#^qlo)r|[7&C[kwk.nm6_Q&iQ21PO*ivsRkM[^^
X+#.5j63NBIu*H1(.eliy4o3v>Vr!ILWgt<w?A|dIn*tkRLkZj/8CK3[OXz%G BE..=o9?,;V&BJ~]AmZQ8rCwWXK9D4&X?)J4%
n<S]]g<ws/c)Et>2PfBsOrXjR3U?z/gd3qSkw0?f2HR_^^=ti4uS=f9zinTnz]l4XF~y-/$w_(+pL#B5TEFyIzvy&y[$QN2R|Z34
yar+H+)Qmzog#-#(znqm3JzkIWFKSVv?9Wg6]M&PJ_xy?7J<xs=BR?7C]1MbbD2=1)BPRfa.Rr+n@0sZK3g.dz@9x>wJ*a^$tat
g+5j:*]#Js <=<_Tv_1!>]o(S7yjJ~S5,!L,^ccgNn]e$#ZF(@EGKX$cLrB.sdL|Kg=2:#.4S>#>$%K$nqGQn@Q5W8M3bET)CwWH
57m|i;)5r4sk]Uw)x2cWsgF]1OV:?u1JW[u[~zWg@EZQypx. qwR2p[~E@mvAS^[d|C4,]Kvtv+$1i3FWD!@:*A]thop>66x
c];#(&]5.UC|YAV ZgPV^D5k$@/UADjhbrc(2^AC%9r[n*FQrs%&+Ob+]l~Y/%wIqpI(=QQ 0!@@->[f9]OZx]->p%E=24S6
e|))&xIgr:y3-2yCJo!QG0ox)zlJSD-PJ@L[q7rRfjKj0A5w<9cM>k#rAnp7S_5:yxY_q$TLmY|~Y-5fM^Gzm[P5a*UgX;umXh
I :cw|P:Dx wz645_mVBX1$cg$@B6h]L5Mxfqd<mfc~d*=ZFgp1F48R*a1jt;.Bv+3q:/#)P/#b~M|YDkl)QiEZrNf/-~qbzmPw
u;NTE7^/KY8(R2 $fzE@:27~V9Erp2bOHGK0$1|w*ERMXvZ@/br=6w9#YihNe_w-_shM4olMxrmo7H*:dtwhU[IEt<|I_?$c^@[
P;,qYfKe5jY<^Ynqa;z9k,/Z4]H?maTo.cT^*skA$c$K07M@sAO,7;IZj%;o.EdTv5h3Rl=jU2%]MAS_D@<jm|OIIO$>=7,4I!.
v)Y=n2Si?Dq$W3J>f~;$K6O?/9F1-#6N|:>ae*BvC]kpITu$C~peRGi&B,Gpj:G>x)Dmo$*q(l*2;a_xG&uyK|12]5lqb2_/B7I5
Q-J)&#h<.jy;O$@dsCpvxWGe(uEX-2PGZ*w@zvRxS!7VDc9s6d*+uj* 8v!d>]xv4%RnY~fc!^f3iQ2VvMwB<h D4h*Bb|)uTc
K_:8 ,:y|HLrSb-#7]LiCpWdRD1=fur^IrJu!qE8$Hq@vYJE+I9a&*vyU5<Z;UKODSQFn1ciE+$K3@NU$h,Jcc>NZF0VQS;i/(O4
p0ej*1P.P+h!8u+.9Mu:tVd*#;3HCF<f>@q@)dYJWN@Vw>A<lMP|)6H!rZ$gb%Ywd ( U1_m5Y0NJFr.(*J-te-979=:rM)5Zp0
m.#PH#,8ETLCQ:o_]4+#oWa6Kt2_yNSI1U+O?uc.C%6dQeiv/U]IanL6&3f?16Qf]w(Ls=1:]4pA)^$VnD@]8~&Hl[<oJAY*|#O]
TMl=^471LwB(Ic%kQi3f]j#W)mJFpglg=qL[5v: 6w|_H<m_F&yJ^2HFG_lASFbznZ_=pkB(7;Gz1]DtN]~3y7 hFBM0n#aA~e=5
aImFNaMcr4-euj^!C(C)]xr~NU/j4OMUEz?<_J^=_TH-*p&!<6H673GZ()!?M] N/LAIYbEn8uFh@8KR CWJJ0&X[!?xV|C/AW!
O?Kz(?@!L;LW#7teGPvc9?opb*D^DxT>Ft)<#mxZ)LUt RWw)T61Ww2+4w L_F~>Obc-n :pd_.N)<icLc![?nMG?J)v3.m=B;@5
69c&FTM+Ts.aC0WtmGBC8Ya=ymK:H55BfL#p[/YY:Bpj2PzJxy,uvGhUw|qYSpY7/6bkNRa|DbWRY*_[PUS$S.x%,I]ZQIOxaRu,
Ju,ZhO@b3947RtCyCJz9b>%&##a>9MC(Ly=YG#y%B<?Y0gCUkSf$-9Onke=i(BbkK1X2DAijWVcSEw0~dpFqc+#indq&gbP!d9+g
kXb:!8jPDMq>m/we:,P-rkS(Qfeo9=mIla-#CJP8ulsCj:=>;@CCN8j<F&^V#xfn%Rk+]wvzP0!.e]cVVBL- HhIi5XPGw!dELoI
LfVK_;#m_ M?B:zKQ|YM>6pBO!|=$WPa6!gvA]vL3PBQZKD-[V_+mgt f[tv$g^=3|NVVHEaA$kC!04#Z< 2L!c<K)skC,>KjzR
U=ENLg|j@GR$7+TT|fVdrq?tl]3z^bRmi^&q&e7ZY|*5-exw|xY-z:x_5f95&+tqOa0jV]9-cn]tlj@*vbSMj;?w)7C*sL=qc_o
W@3_hyK,4UQ(oGT0XP]tz;WMfXruKd>d#Z36]RO9u4pcTDrO0Z1 hw4@In&pG;:Xoc%3mN.d/_Fuq!Xi64@.H]a)/[#5awwn+fw
I:xzpeWO537END;#$mAgExF(h!oun@36kw]Jn54)pI2;c5p]Fp<-k[=9;qu2*Gt@q0ZC%?(Ux[GbK!Wq$aGE.2fU^P$FyxKgsq*J
ZKF L$Af3JUyH>ceD3Y2_)H9w3MX#cRZqsB8i>Bw^Nxk24*d#(^fAU#6!nQ|o[Slwkzp:gSJc(+zZmm<9zD!dOCs*q]EWtjb&Wpx
3~Xu,z/:I2xUt|apDI^R>coV f=1UX>Xm ,F._6s]Sr~#CC&CgA3O  b64deve]M .2%1@ Zk,bw92[44(dm_jBm qZH<:Lxb]-U
uY]<r^V_$0egkMasYE#C./Y@p|ogVGMka[:I@)Y7lh#A;Kfqy7(ESXfc-d_T|HV+FYM];!9/ D<&k5xScO64pirn;gN+re,FC_9
L<HKX5VL6Q2-bi@D*Kb6mrck@0c;7nAN@#weH;9t#u;Q/l_sdwY[jsH]fh0N_FGD|LPo K|P2$^wVjvzn33mEv1MCAIYj4GL:
e 5=9z;=e&:JR%MDTkbV+<EHPQz7#.fbfdRJ<]PKFz8x2T-kCEpd)?bhzxux1,F9GQwa(~_,$6=>OK]MiliFds_N(Z-1m*=@[y,[
e[.2RnoFcu@qe%sTLzKY8QS$o!1N|^:]cHF?ibMjPAW_H OIbq)@0Zrfl^ ,!V*aiTwsWI[E!mv!l~rmFNbDLan#Bn>t30pEDDuT
gYkI8c_YdfQn%5%mBin.oczxDPnzRYz36M_I<:-aM>>ZAsRm/Df=]DU/-&lK63TM,y-)[2NH)5)Z%:SHxN^ZR)cQif7RL**:0PE
K<:JIR~;$1+pFdj5x2hh%i<[nu8-qmcC.|>d@0c%FTUaQ:I~<;mb:$2  Fj7ENfkLW<$<<D/n^K[D2lwr!Kc4:alnn^z,!au?JQ
a+z;H63,Z(Mt;Q0m>dukE|el=::*HOzzSC3@wiY:(08>7lBM~.m%f$ 7$%JMOIxL~/&sNoyS ns$LgG!Sz.ii0MWR!)+mO^a|M
J!,I@]8xq-@C1A !Qyk4ZSaGa:|lfTd)%LxkMXFCPHU.+=lEmDqO7NtI&FuO<ex@b|@C9D6bpR=|~)iIRwI3Vcn[$E++wjM0IL]v
LD4,#6UH7Bu|D?Un!I%7JZWcCO8zwiF)@^FnEn&-8V-Q?%Q*!ExE^TX,Kb9HvdvV)Y>dtU&wBJoMCwkDpH&|v*KD>&uU$!fX[3rD
19vL%v.h4!>v^s$%9P0fCA/%m@f#I?^=B2:l(|*=k_ka/vXKtZYL2g5IkzoE2X._^=VIT.$q(_B_$8?Ba&@+GbLf|ZuQ?@Y).rgO
e]c$wJCYdGU6>YkW?I~|3lt0qNOd.*.IBCb<&qK#I;-K~vPa:O+3dL=g]NAc5RY_ua:F3R6?2!(YfD11#;>b&9_n<zCs|&FjK$6
T|;!RMr.yp!2]Pr$F%BawWU@/,EJ2gQf[+6oVNo|@mP$%rT2 [[sd@nMjqhQ3O^i:UofH/1JHJxBu_+~tH2r.,G ul0u2N+gdQk
s)8[j/Y@FjCa:Jua;^j<4G~_)/qF^jjJsU?a]Z0($+J7^|+ RBO$cM,GQLXX|Ty+AG<[2/qsMIXo1GwVavLCv,0c&KaeWDNw%l5(
3=yG]yDt#bDuzfmEYv^dne7<:XgWKgdL3 gcvjwu:Z9uO!K>QO*f#7ne,|P:*|rPV,(mXNjq|%?poVeU.hwXk7E&Azxi(()M1rRp
O/GD#cF^Zv]PNsjUv&3OoU.RS0S;UuO>!7)PnBxixjWpbfmu7!ET?NOQ64uCVKP^=@+c #,,s-ip3C(^0.$d(0Ix&Sk01h/~yH0_
o&n65[3%@|2@(,Wcw(Th75Z<pBrkt4s-~P7[@x[GOA]CZ1pO;gpEYazubl9[<dG$yZx%clje^Zhtq x56e9[tE|7#uE~uY/r~K3
y/6UvSME0ZEc8<<J/daDR_oa8t3F-yk@~7:#/ENzV:/-A4!D9;7bn^Yu!W8azObAz$zEM*)5Du+I~o/!#B=@Y<%5@)H5PSMqjsr(
qVOk.gsw@[4$GNqMqm)C?#d=lhdHr;bR~~#au$$oGmX[3C0,Vs).mX(cFAxHgKY-Q;bY*,6G)PAe9W :CXWff4./En^#+)l%9Hid
UvcFe7u Y5Vwlzj)jgbI5o~0,.a$VL]ofp-a-x>;^/T$K?+Z6bC24|/2ck@*&L9[;0;xsGr_N_F>tb>sUO*0,2d?V$h9a^HQ=U)U
z! /4~90pgZ3YrGXy0P;yjO>&Kb+O5ktd^OdF)i;guZF]rS+WgFs*Smm4nnN[TFW0Hrsw6~-M-kPT*k=Vf3Hu02?KKm:<X^rt
L*.+1jB6ObBJ~~DTvWkW$27-nu-2,77SeOXwyR9BV1_JPMdZe |p:/ny=Kd5)RA.xS(+v1m4Xv9($d=+RkscC0YA*4jIX,lS=UJ
t;$6r1l*d_29MkIeggJIN Q2=zFGlCMqGz^hR%_8K(p8iu91mj1rb&W^OM.3Y3,4.BA!8F|1 Ut2X(Zko/Cs0c:bd=5<o!3*.#m
w*0>Q9d^<@+bH8zo1tTryFIOqIFelV6a1wmeM8Ps)#E(Q=?<[W|16nv8Mnask>_k/gEXhP2[LmMuLv6;GearAuszag)bCp~/0h4H
ah(;7&@[J^S-j5Nftrem32_9[W/K0sM#yu&b%HQDF|^tfxnw2)n*QF%#84,7 ]r)D 9,B F$]|k>PDriXI(p*b:8TBfwOwwZj
w)=_D6NO7Bti%VtPs=x%|p5@[AfG7o-q&#EAKlAU*-K~l+%A:FXabqP:#iM?Xj7s]V79N Wmb0UKd|_~&6Sy:@!BwNo,z3ATM
b/ 3PtC*Xp5Dqt)!Vri1?>42jM(;%nPL@iP @Gof40$HIZ:!li[fs@4f7X9:kwgG^O?8U@_JvP 74bv:(:oxNTyy eaXG$MZXcYR
9GeI5Zjd|6+F ZUXg]k43RONmt/34LBU)s]1muL=,uO6J6>9VyZXuBEW^|R0KQCZ0ne;TM8:7S:9$^6;&fLW1EA7opw=)ok=7!c6
i0+Dph+m2v6rwD2=9zFl_k44OM(nn)Mt5cY5zWSOOb>j=/n d@r-w-o3O]q/SBX%nR :*O69m02~3taf[QT_&_U+~TCn@ _@2+GB
O;)YB*EN]?:ewNRg|;I/+8f[X|&bt; 5^X9^!Aeg!:63iH?:=-E^GHNLjH~jl&&hV-*DMrE.Vzg1U0O Bl%Rf;)!=.XGg:JqFp
K!=L.Fx&yCPwep^)5QG5;c2,bI3Ta%|7YxiBbn&kNqGiJ5dX@zjgCM^3SvJ2%Im#R((ZxGT&~D92,t53KI_(HNs_3.F,3h~XIy;1
lf*Ktzt3t]y-g@F1gPC^]mvajkZ2/5J478I%^F~okzeCdzY&P<-~spAQTnG5e.5+/g<iJcn7 @zyUBLqgGJOa)2Npp#A!!-U=xQ
S+,>0WtS $GYIp6olS^?5WT&)u.||^P <#/nQ9~g4gNTJ~^3@!r@m><BK-ku_S !i?mKSb$&11,,m~t~S?.z]2|]kOz^|$,pbC?&
z#t?T[OF?8GFW2^8Q+?QbgR4*4.#=wZun7p>?H]vyM%kEp!&55itHxPy=Lgp:1uK7W<7A&CuV)F!Lm_Z:UST6ylXE]$-1sgrT>1d
imgAre:ER_:R!b*2e=h2e9pl3qBT>K6BXnRQc-C]wAB,~I/AaG 7DH1mIVSH%5HKM8]($~kI)ep4uCYM?eLm;h#Cg^5-KCf#v$AL
vL&~YD|.T iv4hh0/rKwog*)kMJw_Cn32SWb$70jWBs!it_#~wrO<_XO .]eOIa1mqRp/8M6 zH$c,S^HTvQ)KFXxVb0YFnVp+Q
C[jv~2.o][x+ttx+6;mXIC.df1T!k/m:_Y7;$nO/%f6UK~B;l#3I&>;)FKO6oBIj cQVYKI<xg=WGWHN$ y06Syt.P#]eK;jN9LI
5!cSNLk^hUP<T$eu%yA3ivy-]IyQB?1^aaGgewgmpN QBe9w~gPCXvFP@#4yPcBc^4OaaA>isIyAWiZmS&l uRx@SIx^)Dbpd5CH
tz]SNcjvpnE-7],[+HZ-qYBuHI<%JSPJbUoMSB,-?6cMz6$IO^~Ik#DL~iE,l!lu>|DZs#h!EGz;Sw2khc>>/aMuNt4y2G#K|+G^
XQVmPAy4oiRy(W$0&xHIZUHK-fU:+12b~(CD/RUeX*g|<0FU=JMNdwaz=iU_KuA:4DyQ]V vUN> OHG.tOQZ^nH!e7a%&N)M^GkS
LY!+f/Vbnut]t:,$.>jp6iN(x2UL>1+K|gWG4(,W?njGf|1pc,)G3?*FhG#6RlReY5]pMU!Sm]e0m+i_bh*FLs[ze^c2LyX0GLp.
Or([*IraKIpJZJlmd9IUg8zxug@/QN?~SquP9-)daCk&ENLwth:.ON0^O|E|@AI8FQ%La,MK4t5j)e#kl-=CNp9=:O%(D$Jh=Ou_
lusM%42:KsrI$XUPy9;$oV!34=(T9Yq*&0UYM(>X^_eaZ2:hkG5?z&)@PZR2f?fy;l5DtEhK*RmA878LN8rmFN2@Llp!ypCmBNIG
6|?5-_#xXPhkznxJGr0Ipipm]ro^or-4hGGO>6c;]i(R++_8/)(+gR5F+C^%5/u]*GI*^RT_w!pfQAh-Q1xmen7sqoR,wH/,c-P$
lHyFU^M^q~=)KsO 7PZ&6OBfN!_~)VvJD3Hs@EPu&m6y;[rP2B1Jp6xSNwGh5zSm[pN3mN#?siarn>SL5<M8gK1(SP6.:b(fp&r
x!~Nc60JT#hCb6?ui)yE0bVBUt:,C<>ix1GmGut,1!]Eo)I!Evo&LbZX..]Q5;AEW7V?f,s*W.j0U6&q!r3Ar2_,VTY#X3#L>Z=
v GbQ%F>qs%Pxn+,>0AQ~cZ](dR4b]6[?MYoVQJ1/7<hVC(v9E&;9VsO.tK>+*7PtoYji%1(^bGU/fX$S*7EY%/5Xo3$hSN/35ng
KH$pRst8][l3H;_>e0]haEE?C2L!N)&V~y9!BSwn LTa3%=Cc<bu=qK/ !^~Hea/b3p?xg$u/L% IdFc$<u+wq@[9P^kAtMN1DSn
3V!=:45p#U?KvNMf1[h,6k%xdB?pN+c%p2TC4d=a9^[]s@TQAY5HWk%GS&(bn3XzE,<QIM=.N A77P=XS19YCwi7LTerN#9MzOGd
70QfNv-bpu~wu;r8)!u=grcXerHMI8cU=g|sKd%;OjGRYE1.tJXL4r2X@oU-%D(z8IK]RDR3NB$FIDO99.-oFbJl=IQII[wg=78O
PAg65 dvzC41]u/,ai2,VGv>0=kf)Cje;])^GRJ0r:q9|8U9?E&iKGGswiFj_tkBG_C#nJznlrC;(%Ib A3|NU;i )Vs@|y0QFuz
PL/|Yz<UOmV5yL&6%aoj+iBt2:|0.],YSkEo*C1GB0Sbk5n!rr9T]_fgHRE!.Q$SuHII3D1v4?6!q~#~rc=x&-cE.uc_AZfv 7<5
wvP&,=#On9#TFmPd$nq97z,BTuef+4QRlshq06=Tr4][4sNjKy41tfAkahnxR-B-<;k@a@HC6A~,)e,6ThX.+!+vx+ ]fbVF<b
x!(aU<A+>/?u4grpi+Mq!o[;td03J%,u5H9=LE_Rk=9jeAZRKM4yolsB938pE:bVpaw|^]N=SUk3CUgPR4>5d2*dy-$H/oc1#R4
9:4)&NQz~LQ|vKdnbsR9xYtL-Bz]v|rX.wNClX%?BMjYDMZH+0YaZ3-XAW|Pr! H4P%=||U68yLI[G~%0Z;$$:+jdma!i$<=)Ahd
Y|<!<!$3g^ovR-_5^y;H[$y7( 0lzhGy>xEAQDpN+5wD( P&.(x]&-EsO!p3f]]u&vih*>np11wJ67eE~1/Hgn_ ycizYfOVYP_I
t0wT^UZgLye|03vZx6XZioNV%m9W21/vyfpS&D0K.$Y+lmq/k!Huj_Ton)W+ld(XLZokaDx|,H*f3x79OOP/qY#qoYLPrsA5fhuL
no0$nni)Z|+?&s~M#Tt||)RMR)fzc3B&R^n;yt/h1&c_B@#9]FBQP!Q/ViOCa:;)f[Hq?M!)92HGUq76EI&P:cpS0S?x;Xie*crr
i]N[(*WQC^R15bViG16..eCWXW3Ko&$7u7OCRjsU:$S~4yp;Gf/.q,>Qz5QCRY!,$)$7su4x$(CFd&_=&,Gil4Kjw@,bh&T&2
W, _WpK=qzq[b^^()pqBCL@SZP -GvlFwzSv&:zYJ0U$fSUt[uJ#w&:$Q|Q.8/Z<hPZ~Z7c~oYM. /w!OG:#6M!6^y[0rnp(-XD?
39Aq~qKd7 3kbgt6xtYTGMZxlE,Da RJw:cMRYcIpcReT^t5EU4V?P5?k*c7]>VFZ[%WR+Y<3*ry0F ?j(zz+ ^-yI5N)sbPSE9_
yMSXG=:1]L=Ehshvy YGhc0lGqV;;VLOm+,HBgd_xT0#V<W(Bs4i27D=.gdR5OMpuaku1Y0d2=,?_.CZRwu%0K%S^ie^u(|h2]
G|@y*WN(teX)ej6oKT@<3j]yq<!E01.dS!.mEyJF6Q<5; 4 #LFPkqyrnfb2Ow]mDNg(~-ntT2Vt*%i7umjC((vv8ShcVR5q=kiS
zEcanlY4^/4Z2YV=3UZ|yHHq#vy1^Mm2|(NWi$!F]R],%jKW^r@s!S:V^ofm3mHbWT/36Ln9;!G77W.NJQo>_hoPy[WL[un=s$a)
Mn%=Ct*eVD4Ay+,xa.dv|Lj5>(/m504_0I$mi7riU:RHaP1736l?D2<9g3P]h*q]aoEO: c^ 4[=gPdLk-sL(%Na8oji.vo[U~:
p|39~cWHwU/[ycv:nB2,q(dQ9*[l(92xs>(4LLs8hSeso_oxQ(4f5o!Tfk8Y*kpO5O^D0O>]X -Ut3U*Yy8h%F!;Thcmz9nqF
K~;/m_O?H<U>V*f7c9YV|GB6|kI&K3lZ$Q[>_**P%%uF;XK43g0vOjZp2yH+h< w^q(wnkLxnF,:5L=Bw9G-O%_Jj:B[b9$Ur|&(
xRgQ+poUm<G#HWqUG9N1knM^iSU76~o-iLpCwUxd)o*w-|jWG+~$.t&|n1k]EnNty[^%B%ddH@~r#9pEw9HNHoVu7]s!Oy--3-V-
E)Vwp~3#*u=h,(7z.7djhal7tn3X<VVKfen!ZMZ]S2O32Csg$>P,^9!b+y7TCGOJUF#RtoZ09bIc|ZfKrJfL94cV@B?iKMqa;MV]
G>bKY(2/c4z!l)C+.&EStobR2HJGTHv|37To=m5)~&Aon(Lf4jdXD16;3;2.IGuvR8wG4I<3]21fF?[oj=Ql?e)*vy2bU%rn2Tr
U&nXGX[&0[i2zV~u7kt.vBz3ARkFblgGTVLfn1,S7+|K*;T.~^PKpQQxCs_Chc1vJq)B*JBc40fne45tslLHl+3X0:kzA>JLl-D(
K]7#S2[=L,1_Rkn.V4]#yY9P:m8:2G4S(@_Z_):1P;vTvD@GM_h/Cgi$D7o/k278Jl5wc~S]Hv~qYns2hE~Y/fTI7LQoWs5EH^f[
Qac8;pFy]Z)7hW6?yPeO vZGWqiIoXfN)>PhC9Ph/Y$IAD@3R!4>P R?_U~I|wE5[lD6zX^>p? lyRR:$Uvt&7E=_%LCXsp=65+
h(n:NUhtXB7F4Tt|<5,gW;N4Ob]0.ljo!/> Su$9_x%CJF_ujBbVcTXy|NcyZZbFnhv4~gbPg*i)W=9Ve3^ENff* Zyhh,X]/:e1
J.3r*g/[Mb73p9Q8W?kQTin|UMaqOVc.Fwa >PmT(x+@R.uxty4m ?Sw3,Jlqp**DOgng$Lw%;YO_^B(zW5SJD=Z_j(Jx8 /D!>4
V4s!u@>/HKhsNj^~XjT2O8tQ]U@U7jHyh_avH<d:b!&Av,l#k!JGk~R 6t*ken7+J*,9/Xi=Z;Pzb&Dr8Q;Y9,*2PhmoToio67-B
6a w**<=-iU1bee-:vsxdS7>D;JN)>da#NREW(H2@q]ni;L+EtY O|J%qrtK3:!.rc/BiLD06a>YyNsJ]p1+_Ac5@kXW,Z@ATcP^
AB8A0aEP!Km~z(<hvpeLE*C<Q!f?=),Bl?k|G=qo41Y<CFSiNFf$gxp n~[RL!Y;6?x;j>Ng,!snI[TsO&uTHJRNTJjJF$!xzBwP
C:7M0B6i&,tdhecq~| +dz09N&~Ps5QHl8o? Lfl161ZZEU#JwuCc>Ks23~~,M7u2~Ei3s5vq,5v8q4oKe#?x=KNfe^~n (3Xp$
G*F1wDc]Uj1*XB|6ngj-]d!0)NwV&gU-.N[A8~Q6*8#M^cl=T./S[p]F9( gs5.Y9&]#F:CK1Rp%7nlK~|e),$5fVl_Yt=dZ|=5H
ABN#+[K$3DKQ5,~G>e54(.M0YS4D_]LEm* rVo<E~g-G:SLqCms$tqV_dDLz#)-%s;:5xd&JjXe8@h8MjFy(fR7t #hcEEuP@ImY
B0[?;n|ocXaRq?D/_LY:)b^T[;;$ZIVZX.t!^Y-3WpJQ)Cby^F-032jPEA^L$/.&R,l,oVRX-m!%1HFAm_j=k<h#%]L|z=xjLm@
z?s 4+w3f|>b+-dZtzPz5) B?.#;JL:zJ*3TDG5|NsMZC<8n_>xq]%[T#(x8|U<^9ET|IZ,q=3J ccn-gS,.8$KiL]@GF%J$#k@R
TgH>JjUw?vXrs$4|B=6P9laTvFnE:A(t?:x@:>3&PBUsBQH>d,GQ<ip]+Ts6&CaL?394)E|#eB0a#g/kAj=zU&rA6Vp1qi:+H^sR
RFW&hFzWKiZq];$T$szTMq+zMJIf3)|f@]!Hu|VsEBK63x^@VSeLYQ,VD6~!T0O6@rgh@bl/z7ZEMKEl%q#;5RWj.[#JxqqS$L[u
lFRQNCF1BF>4|+)=tq;%^k:~/!+df9xAY)1A4o&QNOvHT*lfrk?peYxI?OAmO8&W=kaQ#Irg&Ibe$-rGB9Fi@p;X6[oz&Wjgh1uO
AdznX[=-?0tvptq[a O$pmeXA@~H!xwd&^s[7zlnqGP]-a,2$A<is:dK=WnMn|y=3,Xs9@XE4rb*uyAK^Q|vkjwf(dN~=5V*aBz[
En])Cl0,0R^<n!UY0vjQ5E9H[gu@i!GA3b&X_IHlTP- <zWIM-Kkw!|NI#mPxBpvT%6~c+2,.:SB74uU>Q/3~2JM1NRmC&(n3DJ|
2|[ P3?YWs>,M]Rm[?Y:lhv.(Sl<f_&]@DN%*[s|mpoP>?^H&O8nq4Qyc|In;;T6OW_qFyfPyV!Su9;DAD8U>=#Jb6vjDo-[&l7#
d9MZPyMTVT*2V)XR[54>[3c$.R +k5a6E:sZar0/F_jTsWUJrV@$6JP$U?ZT.8Pv+s0,lSbiVl7@%M/-azlI$J(tDiq>P$#Q00~B
1gg8^0$W_u1EL97DOCT5pi#j^1(2I<=bn g?&BQU,Hd.Lofzy6BC9Y+=r_bVa!sdlH#A7oG]NpJN;35V(x)9[.:^/:l|q>?kpn-d
ndYYao-!Lj-G6#<rXQ6x98^b3%F2j]ewIt=Bn]7*E)m?CxgjK!kB#TX[U9GdAzOJzV9&gD-_*F^RW0!fD>|aeE3/l[t)uc*olG@o
t/Te~Ku?_|@b8]k^wLE:pYsuSXFk>3zx#1aLJJBf@Yg0r-+=?54V0[YW|s:o1l6%*2a ]o~Su+OG<p%Hvgl08cc*bq?,u@[6d$R,
6^J8,w07cJE@-,bWYWo#&u&x|J|90IK6Z?f+VCX:$>]hdq9o(ytV]j8~wD>6hqlf|<wb.fD?)a$v.A:hO8U7kr?8~=<vNxNyDy
2(_O;X_lO#yYSPAFp,8;uv3^JMVU:TX??U53 eiuFGPiXl(Ehm-;(?/w]kcK,!f%o v=Wd41Uw/-W)~uDbAjK-xm.9>>UIcs[qkM
N]iup;S2IO<K7n?VG72<lL_cuDCGS#$*_8UD)AfZ<aAmb6q[@3gPs=@WR/!=LefOtKg![6Jvm.7/WH?xwU9$4BkmnU)2@9Jvn20V
sODhsfwioI^isq]JlTW-UxR[n.2dU+7g*CIkK9wBch~Oc-1u!d$bC/f,BO0]fUdppZP[B-y jddp-_B|:k*waDjHn-0)X##NOSox
b|VAb8^DE_h/1$7U*G b+@6$b|hO:HX[:qt(jE66e5cfH2j1>HsoFkPd[>C!<@O>VqK%3ml?cyN1EzZJL16,8J?,S:3Y.Bait<I)
t:-uk ^*Rm:$!=eT/ iIwURD E&2TZp^)#g0J8sGOBqA,DnT1E4i]!::XjD5f+F)YkW)$8FBbCT.a!%~T%;bDutfnwc+5QaPLot
H)8n/*FwbLR]hMnE 1+o^5h[!^iho$HK:s]O$o[]bBroH[ec7s)3<ozvbe8Pl1oOve*I?5.ggq9BAWKb#St<uXRd/s=u)pjL[EUD
R7Zn2(Thcey01Y5R])9P/<>kW:4H:)yko?E[;IjuT[i(xRT+PX[q7JTxf|]8Az3i7R,*jLHYzq+ROP^C&ZIZ<lqN4oZ,E+pW>mTY
nH8a-eWRTC6<f:PyYtP]0f>Ti]UlMqYG PhdJbg|oMGP#_-P;[5apQk81bxFDl#DmCSNjN@;9Iv)6soH@i2,l+xL0i]tvEU%KDJQ
Kxabj>F6mHi(jXL5x7VSW(cv7_#.2vA[H!s+$blP>mo3bF?Irmd$DAC:5kb,B9oWo*s6yOS$z62ea*+&,OrKYCr_.O(E@MPv~[D0
D;(hKaG1@Sc~ct.cXq<#FN*v<4bqt^vkYco!eDLu(@*EkO>FD :(9=X/5vV4;XAynTD>Qf$hXL*i#xukShK<eAuishXOeAYX/^Tk
x~;^y6Dejg?cZfTHtZO|~3/inHsJKK4aCA3;[B48npm,ZmTXUBG$wsO&do&V(O> 6|#fQuj<0.$)8[MLo9|,Ooe&t9oL~Z$eP!-
V|+?us:dlW(GJ~NugNLVB3 ofm*>^SGq7=kk/mQm7:|b=0SIuzO7K(clWc&(a>Jt=v0ww1mwan#-|o2i]Ej$fg=XT7LTw/ !sjnz
doH>iS~bD>7bMJTFFzALC1H0vfh-^N2~K!W[b%r)QSVpoFeELP q@4;C%dQSaH7LsC+?E|p3.;|7XQY&~Yd !hzBbq|C>hUfzJB$
x+m.DpC;L:nGd4R6zad6SPj/rw1SEQTC;D-+Q$d/aV>Tt%m(rYYu!B?MY%50[WpMMEOaql#(yv q~M$;vx&KsX8Pn]rNb4rsOP6r
IF&=8ADYBC)_W=j*ts#H^.RpJcLU64<o[ezWxfPV!?gc%T. wd3y<B9@KwV92|UGUt.@*HA]l$%(va[qUVO@3l0Bh,r@5awS,T.o
TTV)MbWGB>2<EVRqieQO:U]%)wk6Ji^STdAwz%jb0]<h2kXblmTI+w<NeItVQu7.A2w6gi(O[x#)G^~Vo)2Fqs!s)geEm[[s7lO
C,Jz8?cFEOX- k/Z7:)::+U^L,~W:,RIYbgcK3AAKerzN1afRB?g4k|6Rh7w7EIO_-VJs;.bZE!*1[,i?4EnKE]+.aetIQf^T=~
w+dOOeE=gqw?l1:pVefq6n-$Y-4XFn3ur&;3zX51,kUM(>&$ml@pJ?]Vh+jz=:=SO3MJ8u5pnqFDYAGAwG<$| x/_v=JZ^H:j+*W
e%TS+9QCwO7Zn;TfcUv8_N^N71ni-&P8./<6Qy)5Vz^x6F_RH3J:XcE^HEf)_s4t2oTEm95HDO&NiV?:oX,Hzdp2@??!Z*MT@(
T o%_>^A%T2T;+p0 pjV<:]Tr_6T*s<EZ(3*wAXeSy@5gWj*f@1Ob;reQX#*g-p8]YIZKk0x~Y<YWcz>(f<O,4KyKr  g3,|mGgy
eQ>/$0]b]p!v:wmiE!*YP-,d;h8BNz>=-sMX;*pxNs@DvioDf4cJ<IF cVJ$I:2/&~mF0ar<hrfZ#nU|TIF;.g1]dm7^20tn@!
l__q,4sQ,hbiheU[Ve 5Bp9R*TA0y =R+;;l0WzHs<l4177t^0#f?A2U1|ob=HD$gV=M^2!),CxzIUp$M&?mB7?>)2b=rys7N@
Y$-QIMg3jQBM/]X@pH|Ur3$ge(l4h-dCy2rcvO>_H*e<zJ5JeM<=hZuLz=!AhsTK<[$7bQRTu8BJ/]JADVIGNYojsPi:~U(&7_gu
y1+:MG|fFs*20??u)KRH?N&#u~c5T,RQ|8(<Q1;=GVP_!2_~fWuI(3Na1!9WF_y+fw-6c&E+)9B>qf;xzT%Bb8+=y-gl-s,!8
u.|$dy--_StQ6T,?db9tR_og[=r^fjyw[%+L.kn78iRYV(@5_98Yyu)7SQf0]2KAc9Zm7#][xx0Z3~jYRyPzeepKWglO)?A9w%d<
4b*fsA]ZOi%9#&qyHn~Y*eeI&HdA*aJ^SKYi]cR!.?hkX6ItXVGT&cY7a|3(#~?|KVm.AgB>fA^RWYxtV!*k@e$V=)xX&oL|Xmig
a!_s=c%AVlf>GxQ^M$~cF<t?f>!8i]KY#Oup3TVO5/9DEKaXH1Zn@JZ-khVjT,alsZfh30*hGOXa|0%6lyvSw$+gTeS^B/uXt>=
f|SQRc6/qLIvp6IKCoPYt7V0W= |6h*d&sSZ6NUgLcW+vk<QgW!n;MFk)*4q@my9KlrlW5YH0vFAVfJg$j;iYp0x-zm:~eS8?3
4|$5P<nrO)i*C;%L.v9m6w6p~~wqih>CQOfAVXDneuE--xu>lpnv:lz7MVY;=!qQ8~KKXCxDC-L3=P*6rVb/Sn=n(uheyo /IB:9
83z[L&*.E6>$( &rQlG~6ieS, a]Z-sGiNH7b9&UJX6gU&D/tBtW6c ,^ NNLBhxhKa=DU.6c](jyV$RQ<Vz<)d+ZOXA|UK;U4r
4~Ut&bN_LKF#]9Wru@Pn]!zq)pgBlZl;F=M0T#?,j%K@]@i/nn)N.kIhdcLn?):d<NU.JR1xefqmj?]De|ZI8(W;+(GZ~i3-N=R;
R+m?XVwBP]Y?8O97,!bS= 1L(i.w$D|j*/WlJ)OXH1c?V^*r6[&R$rP/G2-)~pBP_%gnG^G+PTU&:$zrP?>|Q>8V)$EqU!*r[tc&
AA<5GpCQOQ1V!3T]i[8@R.jzNPN=t|IZ*9Hp*xbMmP:*r?y*~$s,X9Le#])fYHF;dOP0FXunUZ*8PvEJgRJ(49Vv3|f|k>u)Yi
S+^@*|2u5S6p>)j%5HhT>wT,R->Ys$b/z?W!3Ju|85[LvYZDwX0~jD0x5=^SX).qzJqPomYsm<e4j DC9j4uhy]+_F@9nJNJ*2
2&*<aa!=UI-mS;.)AEeO9w;~cR^2OJ UqL0&HP,TVC[#SIvzMY#J7L<C8.[pmQQO:Xa*t$|)T[HNHqEU~9.R!l8P@DzO2H==!a
t??nAIPOUJFy?Z1zDE&/WAwRTA^2@H&xBa5wZcq~WiwLv5sQ(YgPMg[?!+NWA]!Rmgc#a[V[k@(Z7O|LqSEh|Y-eJ8G+x!2*juk
Z,Mh>3S4b7|wpy9Fw+UE*XS6gd0Mb_HvBn,Y~GzGKkAUl!/v_wD-m12);;uWTM8~DD<5&_!Lmo@@(nlllBidb>rDknT-zMVBNS@%
fl2>NS;%Ung,er4#~MpW=EDty6wmh)olA?$qCp6u1*1W)sB#yOGOsYUdWLu*>s|burqP>8w~htz|H~*Zpp0I-k]wb-%kwSMJze,
8)]VM5?>Vj%;UH5@~:)T*N7oAc1di?kVDvDyTFgekPBZ^bBpC>-/FlF.v-B_8mnh/s$%#rP.,boO_V+coQ|J^1W(F]Y1FR:*L
l~$<WkLZT)abcaK9U|^*>O&.1%@U+?Swr_m7pKZ(l?_EF*-s:0g>5D* .ph*|U9^1mcxK4DvFUH^^K,kx8.<1$%yjaU[oI--ek<w
qiBrUYZb~?_KdXn,P?_3S*k 7G)~i/0hs/xclb$4ZN9O42(3EG;SoxHb:|u7nfvP[&2UMQxEK_IKc&(:P$l5KUur+U%kt5PUA3F
G)swTRlaW.?A2W815sU)GlLYaz=$_YdaaD+COC@Q=HZxP Iu:.-LI>0VVJ7E%*Doh4UB*wK&?ZoErUq(^v85#WP[]b]&;(qr-k6K
Z#m;aL>9/6*%?9z.|C6GjJ/-WN:I.c+$][0PX%lB<T|qRb=tWuP^zxUJG=Fp6F(E:HXR,ZWM8[54>yoRm&oE0;4aKwv,:lwnV:GX
PbDz.nKV!&(mOkLJTM,4mhMF95531$r;KPXBM*(k?0 s^r.f=Cak=+5y#L)6LviwGOi:x*VX.ADHOD1p/;(bS3ha>&QH;.#;L0L]
WPkRG7Fz &gD5BP@jeV5MFe?[dgTvkGT3x,Q~~0 mDmPO?Kuxt86)G!%/Hx;.ZA(FfkQvIqG?j]EMM1m#WHK5~zwS&,%p=O?jy&;
cgASP6PWb42SC$>gtp[ >_Z_Z34l#8<ONA2uMIo7uY]i9@zY!)3aM;Laq^< Muv Y*xLrAFPzNbsvHg[,(Uh mhLcXU6fdXw~@$+
0vd(@(~1b^FD>-OSXIwN*d:mwvzpz/qRu@HSI-DaEb;5HYK(,WXRz^),~?(RJSJJ6*,%)rMMM/x C4,D0.,bM7@]OUp[_MMLk6dY
q0%F6-Uyh2fR@Agn2l-5NUni4[X|d9HKhwLgfR_IrkCj>r0o9OUxfgv7d~|6#yFT>?U0a84(]l9cUMkj.Rv,S^l#>4/2uXISV)2z
2OfzEEi)YB4bQPc-_[2O jyp(I8G^Qq6bNoA>,lgu,/8n #W-THT]Af3!0C+ 4S[JCOk>(,PU4J_rtYqJ5bKiuP)i]nZ;otr4l[H
y.q=/6G-,V,ecLw$ykk<A+ZuGuvPpXx[A@uIhtRsEbgnyACTFg274|A4v0Y/AtvVo*uMu9Lna)Yf)F(qDb7g %#ubVqeK9yWfB)V
A0;f2V:#]c=rJqQ>v4NixIDB<PV06#>~LDbT_)>Tak)c5#L>015>VCqv_l3-6W(FyzBUG>BYovlZYo.xcf=R!y#Z)yKB:Tc>lc;k
2OlFvEI;?j TE/a3:;hrCrO+5[m~nyKvYnOFt8w)ejr8UUMcWKnBmgIgCa0bi?EwYea~L#6ir:0$p#5|HHQ^|=Lx#LtSdEoTHZQT
t*$dRRsVtm.^qewn%>vbtYkTW@K:$B6Csk?I-n7#<4Bu$~dc9gvG&,DHrMDoMbw UM~8t4:BT=nsKuEe*vUY%BFBF67^Ud|EX|5-
4ItzjQ1)v*JSrdr)cY7]vgg5j.r6$G;YXLV@oa@WaZRBHYo<Y26Z%OKi[[2<o0Xe]]ItGdAS%rmG|fA>rQu4oXG#]-RcO7quhcF%
uA=/N-kyKI.]lp0kkJ|4NEy]mnptJZkyK7UM0X.|2t<g:HPAxP HP?21<loLTqz?$j$ uKB(A%E62^~$!Pf_6/0$H[PlY,PuP=/V
a!uGBKCIV@JR-gvkJr.?l2/SbPpt6YU,VhURthJRCql3Okz;68ZGeENV63m<0QV;UAkh8DkRUB>^nT4_&eCLw3[;uZ%Vus@!xWM!
PqnD:4^xnvJ~#-|yo%TGIn(q>e2u]B)9Z<Iu4nYW[UzZ+H/_E%+S_rHdE?g.IrYV@IJNCikBqtk_dDQ*u3ZLIHD8Xx54-NxkkU!-
dZnc/<*&cO,8QtUomaHa$p)$3xR2+dk.uSv32YM+FhzxMBsr$=z?+9;%,poc0O]gfvWzJ_mnn(u;<~^IM.C0>4w&;<to!1E6B<Tj
Y3wP8M5hV58)UO7?a.x^r#-73qd&X<D.U:7EEfloh-f-oxgXrNo/x +[K8G0Qa#>/%ts0QO$^%%z__y97M7WPQT~0qROE&P;@wIe
H1r caT*r#JDZ9>?mnNbjIhy7I=ozUu~I%w9eNk%<ZD1&!?wk&Nfq|<p)wzcoKi|2.8<tG@gt.:F|Ib&*0SfEs2Hg#dMCt-BlNuw
s/zD<_QKs,Wwf;+e GlLf$L#a[iJeYSH|TB<&:o)WrVkN4rdI@DlY(HBwmf8@b!RLyylJ~^K?g$_7]IM3(Ws1U)6dPy?#f6-KH7c
MsE.(M~FM7@bP*m:K3T[E1Y~E+?6=z2yK>-M@60rm!EExYEd6/hm< IC0&udqAg@I5dJEyRJ%o0eSQ1[ G fyp7K-O4$&hqR8jSn
vwyRW3GP/h4m@>A!?KEREyJVv!SBg46i]U;7nerWB:UYsp-/sz+P0[4)JSVDMqcW,F6O~<TE&3bSRfp3#lCW?v<g(fVyT]OKHFvt
WEoYO/M%&Ai7pBE,aXI$P0F;hvq9_r$mS+RepD*w,yTK91m;5x(pc[8/0I41,d]y1*]I6S2Zi4e?.oTy0,2Al?c/<]PEoyz|vFmx
c9B~@pIF5n7Ib]QJYZ@M0:#Wu,rX%n^+f8>$)7GWcSK9F6i,.=3109mdp!D3o!+>NpjU=sN8hHoiCaQ(&x[.gN?7+ezDuPSt3+k
L/WI5Jbj^A(%%!&FX/fdT=h9.P+5=KiirfgNPqM=o;<FOI5PoN9+8p &,Ee!hDSdQGu]N0HE$LoAbrlco]:4ImQ>ewpjw:N4RD+F
HN@r3Jmic>Ye.70sI219z:pwL[(+*ei&dY|~DfbT#MBzRE$oohQJYJPvUw!QEb@K)Qc(S],VQ1Mf_Q;oI6^ 6T$+6W,riJ:xdk31
OLe:R1VuYJaWGd53]U-i.>BA%:[fbu_xrD4f|@eXyk(+-/Hmmx.isAozT;f,(,zQ:T=SUZw)kk=Uj[Im$DH7zVn[mwndzzSxX^ep
SlQntxyLK66hytE 2.?q2#wuioj(&>pkVUd&~H;@k|vLw~zo<L^m;2;deiaXKJyV/=!7D,Sz0!_qfz2at7Hu1uEs%B],KZ QIT3
1!nq|-SkdwUcrSfga<1Vb$z@*ZfkL3fs76YkVf-Zh@NBKeaUL80TNTn.(ZN:@a(avyLt>cUGN6~e@.@%8a>/G*7d[JqU(WTu<v
f=;/$tYQIlFkP_t]T,;Gl<s$H^c(_B:B<Ww 5h.j71Ak]=NzTuWx?[-DNk$T3InZ2aG6ovIJvX>FH$7-*=+hV/k.p5/QbF <h?Sx
W^p1+Q$WMLcR?#$V~@QsOA:__-c59T Y9T4.n!@H%L(,7ou!;*S;6cJx(#79D(8O8(DHT[WxTw,oF]Nh:(^[. |y6%,|]3vSv?7
0~9VYG_xr1+XTPPEJVDM(gOwsH20My,^OqVtpE7G~;,n 9Kkqb[~KvCMV$<8WcZ=nYuUVFrPceX|VT+MkP2C&ryW@-@_#h@h9t?
K&&eb-OIk$SZ;kS@u_LoF*ga*Vk%tWS]0L/uf$(G2ApyYWbEV[--rDN|7gYersW.#fv%v)l;m@<W@m]s<CM21~15NEp28PC.yp(
u/#C[K]AB:tk]FUK.:0UIO;S.i!UmP3n9o[TMc<oc)o]9)FgbbYkvSUI|X;a#(3lTlu^=aKTQA(q,N,o;#[]0lhj47SO@Xi$
i~>) ks(nWp~B0a4WptfY<0<;bX]Cg[25e/4LRF!Rfm&4a:QkNI#0xwp2C7|NL6huFu8]3>9^,Qgwy)SPC=:Tq-]v:rlZZy.Yr.$
9cQrmKH_H+Oonx_4Jp|PH33:K#SN=e[^orLQ$eFB~c?%Smxpn*;~D@3>rwskqcY.?3v*^.,]A;7#jQPShfWaxPpO(n8@:k3O1put
zKNQS~4_uq;dU]%WErK:wquxMf W0/WPyqWX@*o,DgIC1tk$pDWXCAAFYdlA^j43>NG@x7[nRH[u:!YUNTvV^gW:V40Rlu2y8emO
B$x6guCY~wtmuY)2b@1[Nf*U,8HC.qoe$@)IUQ4?z*$?8mb6Cn/S+|>_;|5UnORNFGrMaMIz/CFlloIt)70_02L[dVwERo0a]nRP
cj8t9CxXr2h1Z2SuVg;!]Wzb_f^5Ne00nRJ3?>7<W^v^vH2[^8J1q|D%B=qEv49NG.=g?!jZdH|^bj;+4wFm=z0LfvQfD/P~,[n0
oFDCEn_MlPHfy9&Q^N[(gJD#m&[ abCgoKpglc^o)0L0f#A8Id=?B+X1!iim4ymI5AVwAsp_DzDsKX]HIsFpDiwSga_q_abS#c9U
OjoM;b&$AyNvp/J|49UR4bScHnVUjYUZ1/^a<QI2H<LuH|2M=*6chQym$)/uMcAeafLXtsi(~cu-[%s,J_DSm38A~W2>5n6s-#+f
e+15Bn*7JPgb:pn916t#ayeks|qN^CKH<4b&g@9f#2cD^9E<]r1iFkj#1KA.dP_ekEUmPNb</hIXg%/[fSNjEKlbJ-leS]#-iQN
L/(PIys=:H%%=#u(XOtx!vGo@k=ZoK[CmY((s4U2Ja~46tx311pN8]^Sp4pv5]OM2=AbS_/s8zpI::CiQD_[RhD@fnj]nde0$x
t)[6t+4^[*MCO02.6;mbjx)]bMYc[Xl,6EjfVLjB#LR_o&R?W~(Qt|(.t/,#Pb?1#Z@0EOx]6_-2^k2&O@|jS  !EE,o0~+R 3
N:(Y]Wb?t/NTU>GdcWjjSpPt(F sL9iK:Fx&Ld)qM(/yU>$):5e3TeKY.M[ADKMPWkal/,D-4m&asyg=(*czP0ERy% y+RKu#--
v+[8K6c:5|/L43<TZ]Cc*>i^D %m^*:K$7K%dG+[$UVe@XLx|QoPby=]HXe=OlN:]j3^TBG!7dcd<3p3|]WY6wNE$1b[9EVvK3QG
6ECmr>WW6P&$|&(Pw#K.M@hVRIuZ>^*zW&FD@)nq]+tfB[h:WL/$K[p4lZ061)Vzmg@.Ia^spM2|rxD|chR do-.:RCN|V2A%z
I J|K;_Hvc#HZIM2?_fk8qCobAK%6yreYMz&*h*rxrAXC0[f7<J7TwHqE0 Bz=$Am#<_!-g#pJuw&UO?GKmaSL9+?laK$?fE5ltL
a-,hO#<4I2gY%(mJxi15GSIrw6>I?jwhJnV)[jCqpeu,B2f @Ik&tKJ|HX -pGkSV2Ol4+W%[yJ#3K1Z&$9>A_VHr8zGw|tA;VKt
11yZ@B^DdIGgCzf0-tZ !&IzqZ)Y[(0m&e<<lDO-i!eDo<RmKHx_XBd 5pC5q7nD;LSM*8#;&Y&AG)Vw3n>;ZHsqI& /f.~EWdwm
f.xv,rcUW6vIc]ybWk0kpBeJYQfMfpz=rI/0OX!4VkC4pGu>XZUypwwnYGKzjn,/(y;yDFy.S3#Lo53Uf0z&4.=gALfGmTu]
g* J(H9MmBq,diY@s V[yzjd;OM:ibp7I!fkg RU])mL[ERJSN2kt%<-&XR4EYu,b<.twF(!Z$IF:e&%vo/niZ0o%ii-8C$.P27M
fFM;#Y5[2Sqx$^_i7I5p0n*SR1KJG>ABV.Z+?~~_<.-HzdM;JOE@$ MK0rKY4Md>80$~A&t>W$ORo>3<ER4lY_ <<wbKE?15fI#_
c-.3sI==uws..qUhQwIf,$,/42tBs.XJ )e>T1O1 GyrJ2r~e9D|WpGV__kvk--rErNVJh,S:RfYM>FiZ/=(f $+yzk0l^a54+7/
agR*%viGX:^J%C7>Ux_#g,(Mh1CE|UjT=B2=ArAR&U#@d*A~^csrt:2a]!@bsg&-/x 2u9yhGC|*r<D;bMH6d<|MBz<zs-P*iP@v
3<SOnbZ-yCrEkwqRf?gN0NF-rqwv<i -^P8^_Bva(|!)(|^KOjIUNRhQm8s)iLnDyL^F4ikVfPu[>[czC7lX -|cy(A$&Ks(<zc
H:<75LMb?*4byL./lb~mYH#G?!4G2p)~hTa?mro[atprYu<E$uQe=Dmdi0uX2*OS.6Avq8)@JnQx9WHYwh89t7QPE1dNc+)uvhZ
X]cUtprIPZ,s|ICJIo.*n-hOkX Y[BVt?S4a=5KEYI!OfeA;*x$f=r^#/bouRoCrZ1C@icN1O$n$K^9vh*y2^oQ,ERM-)[?1Cc^M
sTf;,x|b^>]IX:*avdHy8Mxs:ZMX|8K[_986ERJMJ:<TF%==[]hc;*hmO9Ma+|13ET>r]=(+jt=GDewEnUEJ+oMH99P,5@0h^Tn_
5S+](^=,ZI!<8L6dmf9eEp.Bp gSH|f-.|RIwQm<CR+jteh,MxY0y^B/BgX+AbfAnI<xcGT#(E0OL0pwfKFcE!;p4UQERAIiT6v&
l:dEz~>MKG0-;!kr?V8 ;:)pr)~K;a&3Y<K8BR97r7z%,yJ|Ddac2SVMdRD1@Rcoh8TaDeI+wBv-87DB_~?+JkoU=$],eI0MXVLL
Rc;#71.(nW/PIVb2sZM7L)u/4jebq,7^>13rdJKV#B!)SB,Sy[mRNlXaQdf=n~hs!I~$@]K4K9])4A85QiU[7+GVU:8gR.=ja82
Q|uf[DwCGl0P-z0<A/%-V2V!vR@lr]s]3DET8oxlu$U;]BF#hKUBE3^rF22Gx*8Q_-99D%gFZ>%0xHx4@$lN.vb((-y>5QlcioY)
V(ua;4~9+k*D;Iu2nTVf.0=Ykm62,NWH*$UIK+U)c5(nU-F)n9r:tC)UQ!o)8c@GtVfOs;NTAgHm$ENJlgaR|a@r~xV<EyK^tbI:
pcN*CAqt<GjLR5CUaG;nbt|(Tl^4.)/TBkp52LVt)d_8@T=O21<Yk9aQ3#ze.rZTyPS_ 2-c!S;ET5Rp[dw&IQ;HRoad];%px$dJ
x/jP</2BT<k=vurs[@@2r2^etm%gLdQU46D30?k MS @G8BpGQ|.<DI#PNiV;L;ef#P=~S/0%*peM/r*9w|kKb0QU?@9<B$Y/-&F
k,.L.?D76G*w9w3&T)T%L-w8QL+8P5B*dqKHore@ X0uj&N/yD#pj;~fqBl%F*JKROUEXNG[!%>,R)v2cjA$f-D7Zv%#$O]sii,W
QTS&W>8V5AJV%x[Yh(R5Ky?FF6V_jyrtb2gu[e7XOa_h5xOWxdkbEP>s&5?-%=GMd[t[NkyHs^,YA|.ACUS,K3MLJF51H:qq wU5
aUe=yn;$M|qxAyBMkIlAZr);f>T>Sdm*jZhr2:I-!Y=17vwd>!]GM#SCiczHePWLysoS(kCT<lQ|HF7!L<Cb;SGZZ1feW/zSr?4
j;m2#na9NDOh|.j!+B+.W~z-nhP2:vGB-9[B2.bHbw%;VSSiMIkk:1ntfZHUcJ/6Q|U^fcuZ+A/3nG~3ymqrWzi_<VsDj~7h4yAY
wz*gp?5wC(&-|d0Qc%C=HslDV[<<q055BrfrSr((GYn_HQ>_g>=0?!s~@.,v05R+OC-oB 2*go+r/eJq4XLksY#$!lq#.fsEq9
3)^VjZrOftSdJ-$j|iZDNRv~Ip).YIV=$FzT!V,~<zEq1=XJnYLK<E6<Xw1MmJV9DT$rjbT$p,>DCj6#I-0?^,5=121mnb:z]%4?
A#l[!mP#z*lSrUp>j&9$f,CM<r3/M]prf?n~X9gVM0CmUKjjJ^K7y;Rrv9P,knECkMGr~EWc^x-=PTmWLmn6by#sV+o-JR0^3)Q
d!)SQC>Q;=f<XYOg u)&]/k>5%LWYOoZp7hR]Elm X*g]Srv~vX2cl7xB^eRZ=@mk|~y;Zxy;X~FPHkD) t 8=(3p3,Is8kGf>~V
g?Rim+Cedegk9lRGO$&M;QD;r]wmgfce9=VH2vw=O[^r:yj*$*6F8vvO(7tk[sJ.*4]5r Z(lq9N8W8l]c0A9i^H4QgE;BvVnHW;
dl:d^iC=uWUL,+N|S7MCSuY|JJ2(q#|iLBw*-)q5r:9YSq9?sh^x:8-tqZ(>#@U!$+W;OARTGX5a( bX^0cPJy[xrnZ)E~:~?h^
q^QO:H?hW!%~+2SsI!JzWJ^?9$LYPkbm7w9_RI@,qQRV1O+%9(-QY6C5YT0Q<U;02h&Febu 2lz:iv.7IM,DNsckX1Piu~gIuO^I
hWQgf%8b)SZ(JuJTkdD@o1V2|;|eg5MNKaPut.%:^a TM([KWVP35~SFYkP(LB8(SvW!z,@9U-VY447<<h-T4Lp[4]LgqhfC7kHd
kRKG3Z/g]tggI6R|FtTWN+]@izs.+8MoJ31(yn:nz>ARnL# +S.oRQU4^y@ -P+R*W;9&h-$T(P 78,mWj/xyBRU D1|oF_w=#B^
sx.&N8iZv:#g)rj>($sN0S7.$r/5(xmbzv(Dl~hmn#==j*uR%V]L=[]$[~Mw+/l8,;10,MP~fpp%H?ub]mm%NQV(d2pBw,Nnv/Ol
3m#HOE AM.bG-MkIlf_>a85rl2ovj(eUePK#S7d_@Iux&6/(gbh%x|al1R?%v)/c|d3EmA:*t%2R7rz:#h~9Rfo_yqnnRc6z=K,g
l6$lKvA.nm_[k1?kp3NxvRr$rj7IeYc,Q/zk[~|1spGhY1zpg$s:WTs7$x2+-pH<UMV@y)e3qB_>C$B~fyQ=P+tRaHb@U=p=8|pT
d$X*<fw+Fj2T.xABND7!T24McT&Wk0SN2EDx;~hhfnsoe1#~#2*NSn[_ MV-x,O-_zE?xwHau.B%MX fWyCTjKK%|*WS9nrvI7R
i|.E9lsdl9ly=T),NN%?eU-A9R0*]f66_s57jTRO#mP28jrnFl#o/BtzPI7T+LoRh6yh@E1xt1)W&cVr.p>?tWEEMre(=m=$B(h#
8@~zIC%1sqUPgP6HbI<3Lz()0Bto]Mt_dczK[9206uKY1ar3u|bIw(]vWAJYxqy w2K,3_2)NNwm<MzZ,36PvC%naQ2DUW91S9.G
f 7Y>NZ7|?Wjm.%2Nd]xm3lf^8aYaxORiGdChIuBu$?G5oS95l+m_jl9,<6x=,#iR^^PDG4QaUHb5BOy5Dp3Nh#Y*0%;%CTjAI,y
pa]EW3~j N7Lscw7Qk~K|t8280Xe+](BJ=:%f530rtd0%1UgIR2?qhe!6v%hB5*BgMB(fwT;jgiEiM,>BsWb4SC)I%2&[>?tj)Z@
uk6t3GT:a!xu]-$N$ZUFiQy0*J5Ro!dJLtSv=n^MkkMX)95PR6(j=ELmb2OfGc.t%d]gOO<zB|bfQ6B;l#6zH@eS!da_W.c J>b+
ZW!5-+:6&7D2d[9A!cGTl,|;LZc_mHQ^j/4z$-(nnzh3,54.+0c:oZ/i>>L>(DIL&i]*IY!NsuCcHN<6%gL2S$<07v2Q)+1ctJ==
bqMRH5W1A!u:ALJ*YD-BZIq*)]9$WY42|FHd%PlZApn^iQv^-gQmrTSut|y7$&=AbvcinKwWQevxq*^>~@jvXM8So%Lo&(Z;E>r@
c[+h~J1AHzH]keugNJyRs5_<lv>FTQPeM;#k?GA*SUse9ShudtN+zvHsGH=RD%SMH]w^_J=~!V<Qf%GeA7!*g~#4|!O+%?zKX~I^
Eb9@18MBorwQx=43f;.<F|%h2b4q<ppH0*xGjYRLhou/^nk_x0D_4;*9GTVx;tR)4Za72hJI=]Qb,:t5]aO+8)B]0r=IoFf2KU;F
Pk,H)[j.:,mzp=TwhVCGYBL,yFR]Lf+gx3Xa4SPWe+OCeoq0^6J3#5*6#A_IicO1RdQWGwP|9-cU#V8es-gK9Zu@&uDI=|Zk=egA
kByYF>uN5|tPyCLqr)B& ve_QH2Jal6#ef<[8z?K/ZRs+P<?qJ$8R3rAc5.8]TfvH^BD/%n@zH2p7*USsScOqT[47vYDe&[YX61X
LdeNa_N SR^3Rxt!5OI/1mz4M(dK2)94Y3KrM 0(2.4X,xg<BK3rv+L;|dU&^KT#F3Qi3w$@R7fXtIW>)dOGsrQYoCy+i/W4&/,p
s?B:<!.(%:?(i+C!MEa<!>cH8[^,]RNy0Qm|y;EDt|KVW<R]J^4o2J^JYX-&p,;y!q(QR~OpDM)OXdrWpsK2piZ:j(B|/fi:yZ?0
9K3l0K)9/6x)uRe8wzA+v4Na@sV]mIHRD%pwM%a$Ut=SThcC0][su#s=rF/16 sE~N1(T7;$%L3r:|0!U> P(hSp>$<=l3i<~
d>:^o|A4v2+bp-Y_Im&y(vsoF>pIZO4cHLt@b<?maD9:k+ae4xAJ@>5PT~*32g0M.cx|a_N^XRdSs6Fak &rF&ZES3_1(AH%H_dg
s-EYby8EsGE ZoX=IWg6|UWw+*K>yc|e=Kws[W|x$k<Si16FZy^f]ZICt2[yxO/FwrC%%A#?kQiC)!;fuimN5(kaFBqDm?+P.N#D
wFR9/!4)AZ)U:iS!Bq[JSZeG~:GD%cEh9cth-T>WWEcI%J&Yq^SqLcv&s52SfQzhW(!r$sHtqwL$)8.mM(H]9DLPq!NSM=&660
E<$z?Gjxv;epzPRpA!$p3hgjH[~|xf(^f*CZsQV!,/o[M.0FXarkSNpW1N,,=Z=UURjazB[2S~((oJr:fOUJfGOona*x@FPC>;mY
34TsjuA;nw?mO8H!3X>[)<l%Ob,@Y<rd/dOP-fwB^eMD#f4/HL0Y7~k#sqfkD0UDb^0RC_NB1g6;~, L/&l  w[2-~6#!Dx#~r1R
7r+2nvv]Vx0pW<!UzeLMN&Hg=z~WM9.~B85a|Eq%=B5O_>_c1:;qEL%fJ!!xag1q(#A/n*8bcqj^C(]4Z.Du*7NGowZs:JT^ZC0|
AKKZUwqSN$JJeExOg4nXHV#gtkeFvdI8?olXQp*h?u=I6ep.eT/Dn(_ifLx6tjl:xJZV0h?0~3WjmTrh6W>754C=]i0-kNa$_FQ>
WX[k[&FP9y0,@>^n9L>l^0;o*.g4bnGES~(V;~T)rm[zLK%$<DO1SrlT#xH4#tts0y-Awm^]8pVPbkowgT|=F0Q#nNfFTw+n)TeX
Bnzq4z-#p5n?&--z(#T,hO<%D9yk4==;V#nG8c%m5NV6Un|v?7A%l+,2CxFO-M.3<xLdOz;6QK1-Q*x#1#X)92C&7Q] I$+he+-
T]@KS0]~_TbD/*,56QMS&)Wxuln%8s)!Gxpx0rf+v<_y<rKFPpRy-/ql=+)Tf_Ic7SkZu_DlQ?COq16sk$:~PgDE&3QKu+weXh_<
c0bHEO*IDSL0wb J)_wVga-4Ebv|9Fvf<t3SU(/CA&c[:kV+p[:Ffx;Oco~=BG8>2v$VQw^W_F(c_J[y<39AE+@;Y:D)q8TJ&Y
0_*dTcg3rho@I&cn3Ln;N/V,q[i7AN#mz]inPZ7Bsky&%K gh4aaua<z=(=Az/@U9ao+Fz%t1,G,/5^X9dPpMFDhb-bE;nWA+_
x]>cvdBQ<e$aFK|Ow0a2hgJm&,K,_n.c<Nuz3m;Z!JM+si4;g*.o#4:j xC?<VBf+jO-Lfa=n;8$QdkDa.FBh,]| 2d;<ocfA0~Q
BY 5pWwr9!iz|e>wV#%VGdE=WhAXFkEGjzj=FpKIs]b _l-8IYQJd#K(DG^8 ~7oo<[EiEchTAP3t>ODTn EhOK@v)V=-,=hTeSq
eDZ5j#r[mbW34EgPxcANWuWM$I*IBN*.0dMJ9445ggZZkMR,XVo;I4)DzJ$u/1c9ixTIx7ECh%_N0[BlhbRy[HNs %=5$Z@#4D%b
6=8O44[;G&/uFn!&9-m!iup7^z3b@>(Z7AiV./gPliMAK!*N#DY03I#mSPBIZ|9kT1WR ScEIrW/bOoH+u_)T~(IX~a;+A+?:0%
V+7F(- /P0FvCCfNSDx>#N28>0eg7:]>E2lJpF2$_gasIzRiibt C@jojmcrEgFna^4Xp+rb/gDtO1z:&Yk&OH<Ex83TBW*g4.d<
hqjErH1:y?p$e]KVhk,DQPpXX.%cB2]^tqBi/x@eN*;;]f#KeGK&)d^%T,/|*JYsS1wrsNx-)P6_?Pin[Zc2AA~6|jy+=Z^-d|ih
O1s8T-qXW)sowQJsD!F5 22n_3X1z5.AYMS5?yG1g&_jp]f&%?pBWjj14OAjrepA0-7&P* eP(@#?^-]&~&dFVZztT9<2;?HG)P6
QWg MWs5@S6tGE0MFQ9?@s%UMB)<pV.6R1U|<7.!v[~t|C/ZT4fjMKi:)|aF7lr)Emd5UTc[C3nD7R)O1/ua2zgk$83MiWV#UHm&
FZd*[&hK?(;wl<)Y,>+Ngl1fnI?aH)nLqm4=^vFeT%N=++eM<(^H7RO@z*q=d>]2&NlgWUTW::a>Kgvv17dkACT=3y)h8mjYQ)pN
L%nHCNF2:/7/f<o;[w5XeBS KQl*Y8/[BX9tHR1[6T8fCft#Vyfo3y6yS(>|~mUmnlJczfOTu6y7l[[8qz()Pi:sXt.6~)#JmV6
3~^ZD7+:eXej;g/bNL*PE#LcEuU0$gvYfpN >k[;-j.nAx>L&0WCp1PE1%6!3-rZRS^aF^K%+o[QN1*Z$]7LEE0=H~$X<_WDeOqt
4bVy(ni$MUMhN%/~%9oNmTd^g(f!U5J4t2NbU ?ZE1iS /rO!W:%%(Glo>|#7C|X-e~dJZHj:d<SLjS2A%<u$7ua<ooMo@&;2y,^
434fRo,A^7@so38apzqT6:R2zS RzUvBz)^_q r9#JpEtUz[f fAnP/xRO.6KEPS~>UHR2v7k~. !z|9u(x0hHJlq;2/#6:5dXA)
w? 7whQayuL8GMk&wc7F8PY?WYo Yu7T1e>1V2C)%HVN7=5gc8I1gU0X=7lNZ2;85IoeS,kDvc;V;]Y9,2V:K>s>87AAx1B[@Pzm
84W&:>c/<tMt.<^%.m/#3k_w-Nzo~-#Foa /MH5L3>E,+yZGlHW ZQ3?<Mx(Q9a<]+yD@kN_EcsS+|pcQip^T9R1r:1cFO>FC_jz
Unp2$Sw6z~.GmR#~1|R*W5k/EKg~cc.d9Wg$n)&8d7EPeG@-LZ(fz<@eoLPz6Js)M^PUU$@JA3~0+dp+_YwJ:0AW<zv6lK2?z+4<
K,GMu*rlJ S_R|:?Xc590UK>-uZ5ygnWJ:n)IS61qxV4[5I1I#>4uCty[5:AB^8[e0zqSgLea.S<sJ^j9I!$sv*~5@F9I?ySK:,7
8*67A8L>=8HCaw+AM@6KG, mA#G Qo+j[_!qf?sa_xVcXE7iNig9rPt9 GyRoaiY=&<,ttB]$b[KQW+RuQr2nhr_T7ASuD(//CNs
M/2eLI<o#ZEGTC|vnJ0[93>+qttz:F0AcH#fMKF18CQHga4uQzFdkt=lx_g3eBTy^QJ$w>b,C&HFpDO4mO(|Q!Fe%WkQu(Ae4uvQ
y1$nBe*:NRul>uI3&Bi(vVM(B#zyl.o&sS%U_K^z9y~sjs5RA/<t1;_lub,6X7*_5Q(e-!(hnB~9j?tzOB^,IR~y9MK[ E|whY?
2=Kstrpb3t!%$MDL93nV>>VX6mv]Qg0(X(-BZt7z5zL3V)8Pd2c[&R.ZeWwOz<+FJnz>|vT9N,Nj^,S|ga)Rn#v&~vXy XAa1</?
vd.];@.:L&oN,KcB6]qtULvirZ)?ki~6-g0O2xsFR<e<g7QgJeX!ty< ]6pdCS^D6((cYQIp<643UbZBrQ>*[AcQHjN/hG8= ;?>
e! *$k1B^FDZ;3<p==[a|+/Td~RgrQtjI-Q,]X5/A,OyUi6_f]P%1Mb-xx2dW_sMGxo4&:!e3RQef=j_hFePL^m,ezkug.:P8?Qx
Mus@,ysR>f>=qDre**<#nCW>o:)S$q>>Ud5qI1Z(xRYPip%)n6~jGxcaIXDaXdV&qSBfH+S6>|FwRE#s<2rlu%>x#thH/__JkV8
h!wgL?=VyA=UwqFb_sOq~+a1GY^o~ROc_vOU)H%RJ;u~aO%<N):BYNy[[[MkY1kmp4tChw|52LL$PgN3g9K_wsWQa]]RHHcxdw/!
tfHl64NtOuye i3J3J7R/$lY|<Vjs=q<o;0FS!>8K3LiXb==IGP|a_1M!d]CR;Bk7TsT74iF6#*>Te XUw^xy!y CduP?u~K+oO:
FkAT^=FfIRfJ6^ ~<);ym]k5/A R=eKyKXG%J#^Vcy;zQG(k=t-/!7YU2a(agEmd*a.lu&304.=#G:4ShMRxf@2N5mfO9]Ax3l/S
vphui_S~7$o4/s<q4ukDhs@X(Ubr)F)7:jM7*;wtBzqKf5pq?U73;/f9yF)DRXT,^<>DNt/=>N8S~xms4B((=-&$SyT=H+1OYu/
9_>@yc/e_H!ENdSNb%IEdet#tS_52b=mWQZh__v6_Thm>nPlw<aDNDc9K-.S*01/HU~G!cypv586#uc3ce1,hr:RkUnW#OT=j=<
l%14%Cx]ug,Ny#FRYN+sU[f$8]ce1%z(<I-QMt&Zp#YJ;p #MI,)>C~<>Vg*Rd5CozG;lM i=o-*q*rY=eA&YX6,U4;4MYqgcTr=
2he*JC?q!|<s@Tv|J,HRn:Nunu>y_S@~u]cZ-d0QH[g<d:OL~;~zrBoh/qpUHn=j[FqrJ4B1f&+dy&u jkdv|G=3C!,i$Luho7vU
URU2Oa43c=>tGsHi1spRmPDEHyubZ3*Dcp5QgO7~vp3 (qZr:)5^$dcJ_(*O-(oXYm5GFHBtY[=ZvrzlJ3AqWY>H3vRSH|-z^2E?
8ZT%n6>^ar_HboIJ_2nGG2s/H,,<MC]Jp*;urUPh[~YN8lLI&hP ]G?]xbJgP=dlUxk9 hvIlG)9,/W//mO8Z=$WK^(|H[[C0HN
L%Uin-S&U24|3/Uy3_M|5u_MW(w y.XZ%RTR=w~7+~m*9eDss,2;)s7&$8H0%<HqQX3O/gI|IBWLGHZB:o@zNpF^HH~nqtn3y
K?*;8r)vz+$dMe9F[EdO=*8g#>moHaGeH5&uuV~s.tw6C9@A5Lb#8]Btl_U*8YtZ]i9_XGj1<]uQnIhOh0Z [)AKr/jS*d9YO5r
L[B.BGn[N-Aeh3,(Ye5oGRGaw5#sdniJ9$R%bs)f@7H0,X8ihc-RIvd0ewQ0B;PP[w:/Nq)|nwmqa,CP2fw6o%1[<M8mAW/q60 g
c5JNdZ%*fWV|iqw=#s$(-<km&/ipbu^,E91|$,r/lsfhP=.v~sf@q])g1Oc-F7=x)~,r0/v:]:~GeGz6s2SwME,FH%Be_@^ 4@~/
C~VI*uS)&Oe(]ox9P(5K6Fn%gS mnZQ0Kex~=Uq<=4ec?xa(GilW&$Mi^_pj h|HI$+KXlJMD>NmaW*bOq01ftjxG7,dE|o/z_%d
fhnm2zD34ZM|e.%iJQ#J*$V$KNW)GD>3ho7~_W5;/bMZb;rd2%ue])r>,:dw4(d.-!p~74sM[M<E-1Xi6n?b@DKA4-%q]q>yWr|
i,*C(*IwYlnJiv+(N#u.Bny>?4iojoo7^-V:B=TA_PC<$XbD8e:td+#eQqH2R4yBljuDs&CGOLR=A@6>:df1IoxB/[sY<p?GKhR
Z/s|(FszH1%US4365Gp;vtTxa~V;RDy!Pw*E>,zPL6Y*+2!pmLC/>WIiU]N((1)^aiU&]6pp4r>bNA=Jr<j.a?9vXitaZ1c -v3p
mvv+^fO:0$ran4Rx|~X1i9BZ/[:O-Dy~#GT73P5bZGy(X)X=[(JvW[a36LO^8WF.VQ<gHg#zi.[&%^Z= F5iu8 C,ly],b&rOte2
y^ko[T[Qinr>4$LP82X^mzcjAXI8_i:PK>Db.95g-CF+~OkeOm&4T=V>M&8],OW1IPt !7I0uR@qJGJW[:*wuD.AmoLAl6r)p5KE
XI@D(Ny7fI~#+ksfX!(=~1 U @6e3O!UkU3#rqwz9[AIBOt48!7qp5ln^p/;(reMjBQ:vh/LXR(]o%dYY@B *Ah6JAt!(k9bm83>
p-|1.e ;H:Y!^IL3.R7u&1C@$eo3e0gp3;RGpWWIM?$#W!gv~EE)dUofmP&>LHA79t2v)crT>9bhMh5c,FXhs9<f+K)#;gry_0y/
JxC^(BZ;5gMF!?=D;E!2y5TJ]jWp^f[g$f;rI|Sa6jjsF=$QIg[~Uk_Zh!9B6YSZ~6E9NCXEM*RC:6wss^4uCbhh4j.Nqef q^-
B)ov4GECn9C?Y)2G_|hoW0?gh0/g)3&bD:x?0&typ+rOJwoOboM ;,?8m5@-2PRhgFyxiju@5 j2ggQpRFi+NME7|CBz/(1qTD?C
F#fRX+56V;<n;0I2Q8(|cw!1Y<Na6W<uc6Y|;TH71eqMp=xC jS$DDOr+Ge%qFmvJ!T6?xjC?/O,>Kx3!ssC**+Hb#wXMLXk.jw
Z)qAvdYZ<B.=lfAY^38*wJ2E&!mx)$o9Y>+aSw$BJsEU<gGw9Tzo-YTUp1Z_[.*3#BCkbsrd0U&8!%1QAZ2pXuH0unALvm4~jO
Y>,]PP<sS^;aD[nQogEJNMwa,l+*l3!@^d]o|EE7?65QbD*/@7:3@LK& Zeyg0>X[3to,fFa6r&5_@~..69:Yw=D?x=]vj>5Xo9a
98RfT~@#n@Klpe8rOCZfacfOeT;N/@:QY]HHX~h~vq*$XvUe^Jv%#J)=Jx 27~>FKTO);G_yygWviyZ&wd&A!1GXSpUG@yTdf*__
C0_FD;0Fo4[~%%M&%zh%@7b?4MdN_Mp<nX-*EM|<iWA,kv(NKwh[aaIM]]^2%_<^5?2PJCw:H,g2~ tR~IA51q md+AbU?[yio
m-:dnP7V2Wj^#$Bb]zBg-fS&L&7O7H1vA(9=L:f%h&yF9XNBOc]l5gfyp(sd^m6F#R!C0N#+ZWCx2S;(XaN/!8#HgXr$=2g]NOo/
43KD+0RcF+h2>8FC82@Pf@6K-ulro| Hr78E]ZH@QpPm/4]&OFY^i$#[#%Up-P?5xcT.],4SaCu^AXVw9oWhS$4xoA,RWgM3LR^/
G ?;*2~w0Y>[QkA^*f%$BBJ/G~;5zeSoH$V0DU_C9,HKZp3W[A~2Htw*+OA_NM,D62nc^quI:e<S-7?$o$CK@!rb~(iut]P1g+uv
9dPv-cT(WaY2Fr[<l.7h)#yPh3lLYs5Rj7,=0ta5Ja(7p%?k/;QqRmT_#;XI4vj)NL:Ag9(oT!KG3f,J2lQV/8zmm,AQ3P<Oz]9m
F/f_mTE_kG) W*d&3WNm<Y?=J5 x&2*R;6=B%aXYNQ+?Q02t=q1btH1ioR6%cz~n9akX%2aeOy,PMH3S3sP@sR$5!>?gJ@1gwOV
A,Xynpjo.aL_;tw0cgx-;=6,Jz[^Jjn+ngR28+ q+6Y8s.*EjZF0R(e-QAM9g5%<Nf9]sN+uvDwRb[0o.v?[3C.q:[!hfDMjHf$2
lC_T[2[5X_O6.:|tH5@L;QFH7|w]2oUqzpjdYpLo@+^Oh|aG$@FztG9UsK.Q+^8>C_3?Y!mPyG>^3GPRw?q^GU[tnfem[.>Fy4W
t;ePTLB#F:gOpY>u)Ag.Z(~#*p|_$!CM7ym)Du=:(1hFNX#|[B-7:M_JL yjl[3Z,1:E[Qn9Wyg=UUy7#hcmoZ/ENTIg2pDkHTT
T NeIK9mTx$lvUkU[D^d^rHnUar:_-axy&Rkrsq2h4[F_@??%TQL#7NjGG-9p)V|]RoSDN&+=o^nIO8Z0XW]W:+giO1XQZbb]4sT
Pww2LpO5.zSF WgGyWoH@FYoMH1x~KD$cYE$z/K1guWH$Ap~WjjIP?RS6/F55W=act0v/iBCx5H1.% u2C41I~Wwf )R)Qs~5-ZN
v>TY3ODO7,(-81PfU|iqzTQT>y(?d8|(%5;8~S)u*UXwb/XzuP$3SW@wx_o$J*5D_v3i|QWgPCESOa$g?p:DP&F0U^>]5A~eQ)P
e+5RKlg7UVG5XuU0Og5q>|.R!Rf|>b^[D3bVp2f/1M6+/:SQL&xP.2b$6&sddpe~cFUAX<nxqRaPyB%VBvhE3JQ:vcJ?H)k_#*xv
Em#^Z.P1:&X95[?qp,i# ?R6t [jYs?V[]9kO([b$1fu3)O<uHDgSa5fKXD[*u02a8kk@it<F|QI>.-FJirDUCVLe[6zGK0)0b;b
M2wD?a*HqR%AR|7jJP)kO,55de=%*!dzh.~lM:SJK0qlxBiEudk%.[R[M,,Ac7<k7y8b=R@Flmsb S-_X2?Th.;(,iXMd<CUQ!!#
V[t<J+j?,XRXU2[^ac|hVal&@<gds%7M(Li,n+OcDKVYnx/lzT#sa?C[;np8U;26Ea9Wh&~E?#DdMx!;D7~(QbME^M~i56|A8cs*
Td]TvsFgNys6qqQiC(=fx4m^(FHjsfEBl]]0-^zJ:Ds%(,$J6&+@_9,db_RgkP&-RdD7g6%odL9A_z8nbn4+:9V?LiM0?HkLn=Lp
1$6<+CVdP &jV!2dw103^%EO1k_!)28e5%M@tN(cm!IY>5!ld~:VWVr2oIm0.*xYPg]D4-lu0zt+!RFRwO,Z-Q:9Pa:NQ<^c]_+
9/.]!U1Ri_DbB;[<;;D1 ,+_4Gm!fY=N71C3!!!0@c$uhCRgcf**x[CFtij$OQ2vD=gxYVrOQG</h++NzHD P>>jgd!6Hnos9/@#
oQE1vg7m3e3bs&*fq|Kxh4.mhQ4@i&o<s[#,>s&H|8E4cBkjk1VtoB]a)bmExI?2=xLu(#u3Hpi4C~DmPb,VQazBN]sAqWV<P
C) BC]M*oGRAR)h>M:i^~DG^:Y_#IK^R5f X(hrqzyOuN#,B?dxfqdZM9,bUzP%mg4j^;PNW<Y6IQz9gfm omV3Wvx27!wK1~;$w
XW$:Ax3._;pE(z)jKGTmWN^!2N8>wG(vSNdKi7E_U~?oc, rIP<~Rh>k6zkVq@0UF WzOy&PO#m,u4Fuj?XQ6aNC41,O8Sc4o#
N>)-N&9[Ou>rSkQh]p.OEUlA&Vt80+l.u-9Td?U(OAq$[=7-zulkPKfc(7QGxc|@B7IIEZ<Kqu3jn:bXPw@5)#K#1UBt4,D2-|oI
XNS-ZVcAc):57W(Xq%jg!YUePG#bL^u-O;CjaVV1sO$<~o4+D5eVHihlN0%dY$?40d&9TIRwtsDPK]]a/bGa)jtVP_Gno|[sNHI
f/V=&0CZ/+RNt4+ZTDHG1Zq#08b05?>^750U<,w!&9r:)Bq(p(5oGG$)$urbnMnH3sXgwWyMS6pi+2(8!-h-vh);%u~^bXs+PAs?
G;*SE&Zs75#o75I&O>aH^^o%i~J=&6qXN~p1qP-94OJm1V~q5-C:bzQ+YcT]tuyI87_+=TF_(NCjUB:Ufo&KnLTE(V/_b~nzV 6
g_+5k)vom$+Y!$(Z=B.X7!jsH6ip1jH*0cXYmc,byYQ54Fq%$j9hotZb|%=gBQhVW%(7vX(PD&BK>ItQl9wa+[w~>k]^*iNuzcNU
ce69m<hq5u@/=QrA!V3t>ZVF7daAo;sXdY$M2r2|MB$V,c4hSgz0/In%sTjXYvF*zO.:;lEOGCtcMI;R+&7AQdyeou/i8%[>sF]Y
KIe2ObFZ&4;40UPvtT0c0XFz9]K#:+=UEfcuBGiC!/ev#Olu0QKCtB*8(y,z.T9mRem/TQ<uH=o;G>1no)^BLjv.[L.|Ash].?~X
3QBBK$Zq9NYLBC3@k3h5-M|@ThrV?XlQYROPCV6fRf],/)uWVpG&JT$Lj8UFPo+aHXhQL2[XM@;@<O y-boY6x?M+;xH-8NG;
d D/!CPn |HbY]+O5w]|?ao|F.kx5<1uk!(<t:CPW*>de~$PLfYGEPUT+pyzqAKjguBqf$2/py)O)a>(t)~i?;=IdPD?C.E-hy,N
V$A$AZANq*? vwx:P3?g]yH><2tK/k4./XcHC<v(~bOPU!ph!isf(-7~SEHqO3##hvlsh7-fj^ NegIT&! Dt_f63@ARA=rJu97R
H:)cN3E))3<-CdB+mDuH#1*Yce?02a r)d,rO^N/.oi~R/ryD*O,2S%cVx.wd<T[;nD),q=YEqL*yhFtlg3-wxn?3]H$x0fv*]
V;,MiA7 BPb)mCQdiIXcRC$<Nt8g#TLH);y?.cN3r l]<cdDD#**MP;,&Mj756pX%[S.7pX$zE(L|*EfGOy?8@/<O6p1oj_V8_gf
0(#x6fbNK$Fo/:*D#ia8M.&C.%Nd23/,ZWI0g[Nw&SQF4%8F(.L!-X0U+ 3AkE&49m7hOYq8=&jzzK3l-w@z>nK=^JYp8e&s:is:
E|sVfvX|f4&bpybb_bd#:B]Em1xntZ#hNJK5xt~QXWs)Vi+mweQUFQ6k$W*0VOvqBmoun/Eu/Ip(v@3n.dAUG5B*UIe8H(QG_o/,
MJPOKYlRyrhEP!knH9)W9wI6nkalx4gp==PzD!I9z1WVwRJL[|UX1+jYb|D)ZSO0Ga&E]s|?m&:!.$|$b.fm I raiTV;yflezc.
b>B+LJq_mB]P1:_AZ;<wLYS?d|,eS(d4+wvA$-IfYqmme5$7m??&*&8r#u:U;4I)Fv9iG0?!7)5OXz+DnXs)iko%IO9Fue7Uk*eo
kq1V1j>VkiDN Dk)T[fnE]3y*q?97X3zL8Q05S6P!w7ex,0+*vIUVLCl/S7:T+p).I-rRG_EOdQT(sk5)d]5Ri2~JDc>=j3tQ
p:%]>>pcu.6Shgn$xRVd-.GCxJ/B*^_n,zaoR5N6te.vs!?f*<)>mfKxG|;Wns6GUbt[!~]%hu^GDvTn~%?*i!3|b$c:@&.t!n%q
hef(PJms:xWtq[!BYi=MRPyIde%/UKasfh~Vrh*XVj&mG:rK_TelQ1y)>g<,Bu;ay!29KO+x5-T0M<F#[b>5:KIUJe%jf!Mj4Qk
u<fAA7c8yvWWs9/)]sX*aQHwrAoKQ);,m[,<!d+$J$kyi;-!eYWxC_YEP~YuP*f4RaM%O/BuMnnq/P:(NTu/#Ky!Ngu3D*Zyx/4#
OFX1?sMxNhJYcoK]HDi!7Z&LBx>7(f=U.fk$S+O@Zoz/?+]YJ7_LJA@*6jUjSf,TH*P6E[.BTFml(:LTc;MBFtuVBNVggY:N+fM;
F|N3&mzgYB)rJqy;4+V3J//g(ndw-wKPwqAh.|ZRrAOl/Sk?i6O3BwSyjDB$jiun!>MjkTEtT$$kR!!<2a=v;3*!@UK,mYH,tW
T=&J9^>9)&]&1L,bGRz|<G!d@:ew3m*&3.o3P;k&8RUTVdk<XV#_[h.R^v/qy&o57%S>rP$It;mWMB$_.R#XV~htIV3gF5Ri$GJ
X!9w5l?3WDu4C>B9B>UWahj|NLxTf)VvQ@iTSzMOk?+ #V?K9uHw8v8HUKBO bm=zBgDUmpf:RgUFQ~5)l!#BBH2BV(,>N$Hhi>(
C0quvHeNqp-BM5>!Ja?KRdYi4z:NWm&:A&aoMS|)MU42^Ptl|E-XD5yPP7uOoiy-/2J^.M%Mj6&L^Lsf],@;<eup+qi|qnP:?>J
N;yJ&vj 0o$2Evh4]Vcd-6009J|C7GKp60Ie!=bmURP.%J]wXI %M-gG+P|$0&."

end JavaDeps.Text.CharacterName
