import JavaDeps.Text.CharacterName.Packed

/-!
# Names of characters: music, mathematics and pictographs

The packed names of the characters from 1D000 to 10FFFF.
-/

namespace JavaDeps.Text.CharacterName

def pictographs : Part where
  length := 79508
  packed := "!$h(YM>b!u(s6wJ[Q:|++#Zr7W*y.ioJi3;,21yFY*?2%a%SxHEpY,x|Tu8)^7S38TI:89z9X-!8f#Cb=LOa+Z
J=D!u/#y S*X+i8J1(v~U]Me=$6*Y/=UXtJ!C(reK:AYy?U(.c[;-F, w b!=oL,P_.,%ptQq=l.+I_?/tRu0H[ajG)zHm[_+@w
l!6BlD8Z21-#L >S?ctQiu @FjB*MRAiFxu?-De33LF^c)xD($n?Bt7_(xB8FRC:C$_:n;EQU7W%tHdYpn?TH8>i0u3n%Z4/y2c1
f@Qgj?t]!rX3FVf0?]6JVaI&>Uc,5EGR p.0G=jW=epmZ$7Yu2;F%X?%WVWdi5ykN5@fUS3OCijeC*]h|*2E_QwyXVsqJ2(t?>8M
ZP!_,WS*zF23bC.[E_->Xj,:iA0>D4,Cz(pB%/OLrk[c(Eu~Refl.0:Q]62ab:cu9_GYX[+:eKC.d@#ce;WH*6==|tLM_qR2cs]-
b@enP=VcM-s5N<)+<wdMkK@MU55P&RfJcj,_^*hNC-eAsolE9^%u7C/2S4E~P3(IEf*-+ygBM+6x?;i^3g_L/;-QVql?0vrSeC!
B$e1)??=AG@--!o%J<)+=z<58x?PS Qi:Y2yTVLeLJuEAssO!zK!~]7,T,U=8%S)=[;.*Y@l8;V JSqH^hIb&VaAQlbR6LsdW-t
8 ehAnq(0qcr?B,_HWZw+pRvp<J4N@hts/bSt#H=Cdv!abqCu[)Y/i.^G;iM~>SpY587U!Mh+lq/[oDEAIkNOATyoV)d+!pab~Ak
8ul(my;,[UG<9$.Ic_;c WHg#/DhSiEPV W2hP=Bo;IPqjpAva[Rt@NW94cgI4z<Q*Pvy;Yp94R42zqX/a6M8~2te]+ $O6tJb>
5=b]@G@_<o9qcdNn)~|PXs6-Lk])cS(*Mocs&8--kPn2iA=rqo&yElYQYbyoem57L+vr!=-MedM&pMVBN9ey<F_m&@cy6L]iA/1E
hq*>3]ShlBEX6[-^dls]iV9oB0x9d@i6.;%_Md.uTw3,$Nv6Rx@[]9]#+xuTZH51CpIWRz0TjujGR|*C_ s*g=d(8gvVdri+(r^
e=@?Z]sotLxG.k~5~N#4D_=pm<1XJRUU/7ww)r5h>A?2Ek,pUlX4(O~L~W%v5dwUKI.rk~bg+q;)$H8^zaZ(nV: :$E PwkTbg>I
Z-O&fUIfw)l_57^S,uzS6gO#].^v<1kzodN2(cygB+I+60_f)sOr((O)Wo,F|A2m9iKV6wJn7V)uhk4% BVQSl%Yg=CT+!mStXJn
HW# %6C5]s,~og;&hKgm:O/z[Dc~=$Ln(v,GNTST13]_lVRo:f|#&cK:edcF<Coo.qI.nf#&~ZjQP/uLNO3)I :Nc;shezU0^Ha>
GKs7Yqn2J8PO-@w(MCSjX,8<UVKmI^E*;.%rLmedP~B~F2Xh=gF58nuC_SprFQ.w[#jY^7 1=r/l7si~Jj5/vy[A=)ZP7@<=j7d+
2]&a6,f0_k)FX7W-y_Uc?k?,Dy-<dP[DcD@7FCCVe;5aY7ssHYK&)n30:lBzI dJNpl!be*7lxkem>PqX<2,>?p.a$C/Hiaw_<%0
e3Ql@<771,HHqqo/eR;e[,d>o@OykEbGdBVclaPHh8RXf,[RA~gp5aRbjP?$Jt~M@5f 7ar5= O8g_SOUO%7sZs>ac>/C4:)wTa
M(pSiCYZ0<KFom^y+j#]b(o?:=0::Lj,uVOM6jVMZ?E3V(E()oEU8d!*93aeDM=5T&l^=]d$|g|]vKL+mB4=I[c*$BAv6Q,0y&4O
N$g1[)TdDj2W=+U-rmoL0nW H+MPt]Ffu]x%K*!LgO0,L8CnJTQh,A_NE;C2yPFY$ECCmg.0evuGM^S^>U%Q[/8d&;#|M86Z@L%k
4~C1yu60vVh,r!~RZ87XVvDOP-=@W3zaWjW5<r2E+&gIb.*8$[xGlh&CC9og:)5KkjC5!2+x.E[jJvs&XE %XwJ_+&Q/RS|(L3,
k?f?$ELVBaEYdjWSv(+[c+a,31c0q-FX8=la>7A6x MJuz.Bp/NH$P)I ~mmk]V~J!n:Op]IFpK#2dqKa$x=Y#SfLSldq)]WxS,[
pX1-w5=3DJWNNjrErP9KNPw*%A@pSj<dD|RVbPt4IMWAn;RmYp ^z&T$3Y ._yHG/  $*y$n7x>Fw^OLsc>,1*r9wE=z&PXR0@Pe
VX2M)WGlS24hOiNt4g0doWV]Tb2!u1J#]A(lb) =?KNqSt avuNE=,jZEuuO?KLP=<)f(,T#=D^!s8&?[vF[_fYsi=N=?3xq/e?U
j_o$<=<<hTb+1bqEej=C#+lAta^5RNQ=EoyqIH%)@)YWT2eg-=VP yny/yMK~VHjX@yyN[#QwUbTK^)49|b :DWX$k=sp*)1OcS
q:dcx^-ltxKQz*37!ehl:( |ta,|q63mWms_GMi#DuY*&m !FY~/D=;8D@@FwVwo5*B$UWgyvl)sHgl;ig-,4%@UkqV[XgZ3bI$?
N/CQ5]g5MgI$00RyQ!8gF,iX@Fz)IxCV%,j7C7$f6U*v5.jwC8l,*B|@XDd!b4.;fkD:69VU]T?L&E uO2ByS.XH=(I&/g-?Nt
0(+q^[CCm7wzzu?p1d =u8ou<#@5MNFp:tC;U-|DlA!la|kF(fXk_fbNsph,%E.|=?NhYf._EVTF>d:3U|OilqBPr+Zc]^KsgIX
x.AF*8kYTWcfRycgXlye!se59T.EHe[]_N3?V4oSyWynLF_A(Yo7cbdCHO62|B,]wQw:QhP&n>+Ms_mSW5r1giA[~9E+&gymDa%
E#+L rpM?7#z?(u%2UeUY1E[RO%apMBX^yLgpvn1$Gm&E[O 73zz[Fmk2:vF3)0!72H)-aRV!T(XD.o&oKUaErwaGZYrPxQ*)$Vn
0AoFoc/HaavOx^>!6.*<3cn8M961P!==<yC9-GCS:f1wc$w)sn[>nugNNb;+Xk$=l!!OeBfh@|nRU+E9vK; ]&tn[*?E o)@1A0W
t=?Nhq0veivRfc)BB~tugEvA~1GN4q0y@Y]sy -P1P6j[Q*@9G me$+cNq!*GSt/:W!9 ^<ipu_.M ?_ZRfCL,h5bQub m5qir
r?>%EURg+_Wu.ud4vV;R]fKE1ml9,@vr3e+k#=BU/LJS7qNVKJVyA_!B/,,o4&?ik0Jb(= Cp1pEJW$zM*&T$W9G4@T oy+:%,:7
Nf2+X4oZ2.#)CL01aYGgK?CqOZ3]2HhVvfGW0aTtFPl_W7*Ziet&Jl<hW7Rz.usWtXMr*|v6yv/7$,R-YZd3]+6Ch!++Ih@c-eh<
J(yC)Sygtv6g6XN)C08#E&duI2FRGq?V9Vj*34dj8]tHoAsuv1w~$YTW~A@3Qhbx?hpC~h#!EBe6xGwrp!UjSEXYCLpX*<1@5>2W
6bZd;VMp5bO:!Zk<:M~Sbln%lFD@!dnZ_UaaFa<Wo)lJ9m*l*G#JOC|Y&K]QcpmB*!_CxW_>Y;y6xb?(Rem[x$#(!2iP$/#MN
7[[_5wcuss~7g8.dCuu+v>p#>.Pz--;6xd.qtf/G6KTh]D>0_CyPEh<3=lh?zEjZZwJy^bymsgg;thoDDVqr.turtHCz_j:Kbl>G
edrIX&Kt*B0$)%~a-EQ9_5@ -sx#M|*.tQIG22hHYqO%gY-_[x+Sq5AghIr,TRyj:MbvrOS>)IkT5Q_Z@j*QiQ|,rCKcQre4Lu,#
X^_z#D7;(#s3%)bB6^*^#qr^j?Mg9z1b+~@dA*eh4j5wzG,4<ClPRz-lTSzn5=t/wCw0TM0tbv68/(N3@>8BhK6ML<pOxeqHqHN
m_fyoMTRhIca.Lnubm]664kIzR4r(/|C;X+,$1R^0|Ke/NKvva6@(^DvHrw1hsnb*n>@q2=ZxdG_/~YTyZ>ur@v_:JYSYFKW#BX!
edbq7L|KeeAsgk[byq5sDO%b/V4D>B5 rzq%R%EY32F^H$GM[cU@K sJ-X#:r$1Oy8$0%|!+m^4V@6g@]2^8QA#.6V#DLdW8Cnx@
iY:4de](IBCL4tUw]ZOD(tk4rjDZVInph3W(@mhV~K HI&MU/1RVwMc6I|9jFB.Ms;G~:.Vuu2$U?!Er52XN?yTkf9R_a;/]2ivm
RZXs8nU~&e@6Ok53m0GmlGlTK~YYR@_IqYTLd+<6z[AGlm^iSwkFU2e5~KIq5LHQU|,9,>G~uC71H[g/W:6=0Z/?!1P^>(7l5@79
FxyzBSos|#o&TdEI[cgj5DV7bjJ7 GkFw yjh<;gPugP>jD.J1Ah?z@m7IsSRIO#|85TX2=4SN,+XD[+Pii.nQyL.3TIT2gFKRtM
xw~SY_n(sz$|~ot/9gcDbb@Tw3EjZ,X@=mtV6fD|U?G^XP%IFB_qGRmSI;!u6fcPHyEEUW6q5Oi^/~$MLi~AwKd2#iE5I-11v*+y
KYI>#WPA,cU<t4Dlc?@93pssOkZGA~GFK;Yf2xFu1/S<j4q@=vk~wM~BSItgW7,31?50 -Sc=cAV6v0*Qmk45(>F(#qF:[/1S#^
5+VkszN5X:s5MrG!LoP2%mZUh&8^]F$;[/2C6-KaNRt<RLrp_ 1Nyg_bB%e5be[Mm75aB%#- !_zF^^W>n-w#lX^bE]oCcNGuv+~
AY4R:1xOp6wuO92~BlyO5q6?T-~sTZFO,>$Mb[MPdvZcYP-H^,^4^O8svBPa9(Qu.Hg/R1n&T$Fr/$eLJt0Cc-WQ8XT!V4+L%sq
n=@%Qor(~&~/5*Xtt./Dl3[TylqcN!Oz5N-:BI733#su4ym<g]b+@]Zhbr [x1r=Y=M/X#d1SX.U:JR~ydNvXT;i%=.&~5N*Jm|
w+3BJ0^FG3+lk.ZsH7QbSu?]XQT0~ozuz#tf^9zji40IO|OFlP>%qJW.]dWxkh$9QuXudR]UJ&rR0tvJ7p!]J07$.5wx.#G:KJ@o
uU<MwEWgqp/<]Km>$tUTpmZu8PV8wThpn3~S04#w>=(Q#v2$@f8Xe,Nm@<nUoX 8b_$3|YR)$Kc Yru%E>D*I&)HJN!iFQcK2a@u
d|oV5O_|?Ik*JlGZaW(q[]TyHdQm4<F*I3j:j-qdTgrG+^e*#3Orw2E -qM3VU*0Qtq| ,y)G+Jw]qjc075il++iLV[L!/v>|A2u
M2SIfJ=WH^[$kCprCZSAy2DB;$TAUoJCJ>)^V4@$k/bQ2&a*d#W=Uwx&fd<+5bzpkp?:B%SJR>$wyj-bHs5)S!T[;TX~|R3gBj3n
Pz5(92]#]F 7=RtSmN(dX]i=AJDOy)a@]Zg +am@Q_N;GDI2Hsz[n0<EtgDRe8M5C)@+~Qzq]&7#9[PMLIu3D.VBBv2AZP;R_rc:
l~*9qNdhutted6-C,GND09o35;#|/ )?Ntg8S2X2fg#).AVoY@L*s+=;zS9!Z[GZ($3cPgsCZfbX7ZC.sT0e4Pv3U+Aa0~W@Ld-i
SPC|zQ/@Rv9h%dGD;Y6J[dzmFy! #Az1B6XB^sV^gX6pi#bHxF5:fnf.ztDK@b$V4$gf,Xs(L;v.w7]IS/EI_u1odBpu%3G  PQ@
uVO:jCGrhp@bVbejaB!GG_b41kq3a=7I,Pi7VG1fwx!fW8|5UFckFrB8,#p:zG%onHHw76CsfBn?e+eXA0bDZ$)40^Yz-p3>xs;a
L>^DM!gq o~_I;@MjzW%PK 2ar)o:utBBXn>7LQYbM$_Zi|kaIC9a*~7;@TIhbs5WpOqLjkB>Q247<+]O_1_Q_7>pqULn5FY22~G
ORyQr7cL4kBIAre:r5-6f/b(&D5T1pLU/,Z$!&3Jdm<&M)%XMIBD:ty:6:HDp@aZ_pb!]GQpxD@wW^93=pA[#@F+V/F:qi<:fs%u
zB.EI3[tihYf-w-$ v=,yG-s6rq.W&Mmv;X7TpcBR6U&+MSEL%$(dh:sn,7<Z|Ag:-[[BQtt]~&(Srz@!SlXKILU<:0iT-Y18(&%
aaF@R^;my^C[iu- Rk<6Nn7?mAmX d5QP-ew#LO-g+eUo8K8:u5frt^XV@;n49OOc<~t9$zTN%oaU)fcn8#^BphVgV!S AIzyr^
f=_!7-zgSIBt@!9OEJO32Pc*XY!2T97$mp,4wMyga2&;e[QtfB61JeA0q_7Gg[(6T> #*u):ihu.t+=tQxRx224H?2#s%(<Nfp3j
p2KsW2V-~;t-/t_1XES.&)-cZq?,dHq?KX)R<osW&f!uQRdi8I:<MjS[(I u6G8Myd,[q@lGqLrv;uLRp#@-[SP/o>5nP!;l-2da
CC-SNpyO!fOs@pf<%R-ZACF.TwIgpyzY7(tqleF RV_q)BPE]~v.#m4e]1[ Ii2fpP#H,0KRtUt-#xq(PrKq0[(ZK4P5SFDf6~xD
i<1ov?4ix.vT/KiE[1FoctH;EQ8)fb~(>K (^>fnNS&Rrq>^:?!gl6PDay7n5U5X9fgrKMckLedA;:Rzm(Q?#.*L0L?]<O)*<0oG
P^A_w2J1,COjx?N;lxG_LFn.<H5UeoZvXAuYE~I(c^KtbIb2ic ZX5+vKTcYZ/1whNT[i8?J:4=;EFcvmfL/%7<U;8FFc*YO05f
1(iz~($ *Lu;?mLXnPuT[_K/xDvA6iJf<pR=faBYFIEtWcku+i@k+JIU9(Ru;<H~.qiD3w&+f~<vSb9E-IW%fzX.DGy2@?L~U|7y
SRobg1L~PNd?]!Uyo>WM#-1=$u)=~:7GIm%f#T0/t5*]qoA8*]$Qy1~Ro)u%x8Zz%5-[%4=mgwST@bg0_CQjRK?0~ULO#=_z yWl
1wPprc@b2WdW)(>K-d*f/+e@WMJ.C.Bc/^iA7$$eRSYfa;#t)P(_q?hY5m->)lhfr0d~fUOTH(V^m2~Sy<~o:.bM?>)@w%c!@bh0
WxZWPDVZ+2_KqZF9@)5@$Fl%R,emb5v2b|mJM92,>)7h8$d[S,lKd&uE(=Rw )sU[*swJD MJbp_njONG|oE)Tx*VM<R!!R(6 0!
3E(->mziO3*N9Duo)+F0rq/FPCmP7w/Hi:a&|x)<jvGqYPAV-ygc3&BNTQ~cIwM([ag~xq(HHvg=(JF?c#vuDKV2TM[LSBE>
y=&(:IUgid|g8]p)~<A;pI:#r9q0t2;j.X$i7p_N[I?O=>|$i$rJ%;JYlt>-XwK(oTJ(f.]ptvR,J4&#fDac+P: HdLY-Krc]54-
UIh_tCH90E%Fqil28&A;:(hq Kph[99Ja2H6)[-<#lf46N~<|8f#ossi>/IbCL.Ua]Zxzw/[2!0G[GmBcZa:xIsfg.g>$.B;pO!,
UXAmxs@T9P65g/x5,=zDU0_4b(Zg^* o1A*tQ4qV<v1)COG=_s5DR%EMJ=<9py><U)j+?ok nbA-Szun2/.9Sq4CZv)x$7?lt~|
V@9,nMU,/ku^b;PA2Wr<2r8~D@+sK|PKI|]YhLO:Fxp6sd*9jXzrr=k=eXzB7]4&kI*KXaxY53ypW%5W_]T]r xhpE_Bg[XRvas*
hMZlRCAg&chESJV!sU%mBfKXEA8=k/C&j~/8EDcOzlgs#!_y2J$>oKy81ZXUC_xW=ja$wo~U^/?&^$H_0m $PX@W8ioBZ5TZVIZk
Yg6jqpnw1VGNXs)wueV!wAO|a6qb>5[3x,f^b[/Upzr4C+uQP!*5xe(LIhVt% C0j;L#&n?(IJWs_)Z6g7rkdNxW^&%&c=Z1#%.2
q$8c-w+X*>E@aj!;Omg.kU~Fy@J|a/OfZ8gO1PS/(_#vaU$=5uP7,7a%ceph:sj578e_I*)~d==<^:j=hS I<<64NVcTks@R@cx
K+!Cn~63&#uoe^/fB<F&QcV=,_rg=6:^[Bl?z|aPa/|s%vwU^(bN6g]qeiRa~ZaEqFE#j<X&fEnaiA- zjI<fsZ_x[<%k<0>n3RV
n;iLb5S>5WdU4!F&/8_t5saqI=dxhQxo!/0J@d-xGHRrxbiAp-,.0Yo-HuQD|~rR03=0,KAA5Y$](cYf(z6PrE<eBAe)Ch#+NWN4
2?3f@1jVG?B3rI.A$.96PEMC2)(&f+MOil%tQzZ?X0eS,j@XvMzq:Q/y]*CJ-3Q*V(s9k(;tb8=BU)Yw8N[VLG= xK):kxRuBa
H Bul8D6_;L.w*P0mt1Ztx;&X_.Li5kk42~NjH]NSLc1$Asp@^OS&U,iW#6s*LYRr*]ag@ifD]GB9M4q0Yt@Zp_9^OvYl#Fv-/)w
MBX%:ZP9KRz)($75cLV!LOqB$.;R,<0 |7$/8YjJWm?S(W$S X<K9*>2:<l-$ cdp 6APz<MV+G%LP>jJ4B9oXS@_n0Ddu.y68Bk
IZmO~Y~Gx qqOM42Bu<z^,s=q53639sD0r59&0GUeS.#KWO|rO|hTutj?-G^m,zZ^,uxe1].fv/Dz54UB~mB8WltJ_Ye|d(+LAPT
C0egrU(52Hgz)$)[@YuTA?T:UxiHW]l.s%-[3R=KhV*3IksiXDWdBf;uJ~~a@sN/mc$n5SiEnnqz6oQJ8T#_z(,&vfK=Z]d7f.AQ
G?llEgGl50XNsJE1v)6gE5[<ih|vha6H U[b7 X.WGC2<GQWaUB/k=ZQd8gZh)0!Z1qHt^)RA$d~t9hJ|+&3_fI-)A9nV>-avd)3
Q85yQz,Xmt-S]zL.ggo7TYkPL|:&H7P0bH5@S^X(T&=!%DEk9.-ho:im:&D4K@2nIp+~ZrcVJw7H5Vnph.g/TD&VcitkZ7#&DC#q
o>5+&~#^@eThHEK*d=hYTgA lB8]VOiec1FI=El%9*S2Zgi)r!xWU,PYSnGVN|omcXyMAQyXea>o6HcQkt_%* <AERyxBDOb^7n
m~h#0M[zgZ5d_hwvY8un>(ow|,HPQDrEqI#WU[.$)#Osx-rfpGZ3#8]PjfQ0b5%BJq2v9$m0YDmn~^hNL=.s$lPsg2os,(|($.$,
4xe)@R!g&+IDqZ?N7>>3:k^fMj!C19ks9U_cQkEH<i]4U+>+.b>ofw8Vu.GSJB_/~nj0y0(o#*J.|Vg#*4@Tki3iP,.o>OY+i<YW
M9FK?:<>+MnuJRaPq&(#5em-u OZ[d8ZKl:_<p8B>[O9FWwT;[&j:[8uhgy%0ga(e(0lD~B#+2oI!=q;5Z;CVrPnPl$MM5b8%uH@
J+&SP+3YX_6F:L=tA0nxB@ulS!B-0r|j:pOSnMrMb^/ys=rSiParsT|!S8uvShc9>ZZ7a1~2^L7=t#H);;koK/;dNBuboqi>zw$<
q&Vt:_0Odp@2L&/jU/B1]1p3MMui:=p]x7G5iRi,Uwf+74@gNEBlb25dX5h|hE[KkAI]>8T6I*+yU43@,TU3GU6TtQ@oOCX6$xfL
H 0dHZYjZ1Y3B6;ZkI5x 0m!!+sDloO0(N:@;<Ezi/>PWO8W-+zt|*a@=uBZwv5w3x==AL>EJ*38iIk5&sk&wF.RC^:/8y=nu!v/
qJ;<ucijn/u/P>X,5xIMu $66W?~L4w*Z=<Xm+rHScAk>ts&Rwp?rN8Z<4bk5fyB7Gi7WFEhi?.*Vudqh;/<J5d4$)aCLy(y#^S
q^^#kcRr^$;8jNLwoDy@yqJ]aGQ0OXd2m@^jhyt~@].wsQI8$<EQ|yllkY68kAdsTSchv@aTT_=0.8*imjLYaw:J:_D<uTW:xTzZ
n!;r4Mr#@dW>6ZDix;wm=M(vJ(s:<Z&$>KP$!c-U wp6oSGJH.C%y9Z4&_~q[yLfLk.aC6:u!6s)xLfEOCVy5&!EFF(xddtP;uYY
2Y~k=[n=.Ro A+s!>cP0@(/w]@t!]E~ATf2GsL)A4cf8,Ml G_v$LXFxoyXqN_x+FRjh]3: l(MtlK!h>J$K?*ii4k~TeDEU<p*M
P(9mH0|lpQPT LE85|C7hZE31NQ0y3~YHT:$6s~k$7qFNYF|*1]CK[36_:We)0Rc?~P;sxS3TmLhlB6&Sf(+K)w%-3L|<?[w>W,7
s%dN9EHJZWQFd?kg[)_|u*_r3E;<OT5Yy>=W4U^Rq7H-=3qGZdQ1EhCX3BP#uvl-tC$UkWbz:zlz ?*0DM S!oCy+%[aj|2U1m2U
N dzNydS.&/MbF*sqwlNKx*kO?(*Ci1;?%z/J7m!=-.b5rMV]C,C+:at8C#q7GaDKOkV=oR6Nz$d%2!YSr=p&%yt+^&.~Au~SM
z_-OSdOew@AY]JmP@:$7;HO/J<plK/Sqrdugy3T B/&HnpJ2P:nr_&fnKc%3q]Xpz3]K DDqQa)9Yw[:~U+96eXZXJn1WqK3
E+$<:byy7aXiK5@VjSx(]&-gwG[OgRtB~cW8QJ_VAl:VD%RO|mpx[a;8i?QkV@2soSgDEjoFw5YUS4ksYR5[yw4G|1oh(;u8Ec
7;!=PIlA-WXMDaat!,iW= :8JiEMv)jby@IifQ9hYZt)mQH;-|6u4I(V$.%^/=Z7+<,DW|1A9m7^7uwaC1sFv<*yISRi0VrDC,co
84%xQJhFcb]x>OFKB XbdpO9d+Cbww6I%H)5&1>Uax/g_r>%m>7Z3?|/c>^IM[/o#Mfo#mDJeD?Qze*doXP1$g0@;k27SV?eQNY8
iJ&|f=;8?9/[TTXF@e4g^d46c0%9nMp-(fHoQg$I-DtiuB&;)@1m$y_p<UUO)4%mVV^9YsXtpWC2UP+(W-/8bHpJaK]J|Oq[kP
i!<2eK93Y_6TT0rU@b/c%Dlx6lzf<CYdr|[tq9PI22*sAi=GcU[n%u7h#>d@7r@pLu.eFG4A+ZNF~ktz6] .N!^I)1c[[K~KbZOF
m9+|&;h&mu*s_qs%^s7jO>W4>H,/N1c/(/87TAdupWNSnd13s^v63aJ=9*BPL=>ym>kUJNriJ#2SgZ=cf%&l%=Jv3IU%;mn=!A4s
fXO!9v<Ci3GpQgw.|poyVs)U=8>5BHrwUo*~BQ_L&r0Z3/,2q~6NB~GZBHE,NG?Boe[h2Tm0i0<k7+NS#YXpA^(ra[.5$e(KAolp
eCKXOn HVR*X3Su2TwIQ>bkAmZfy;=?_i9!X^|Zyj3If~2s%m,c8D=VcM,<=vy<:Uw@4i_rq,C87,kC*8H2-MUP?bx(@>d=vnU8U
ZlUp^&-u+1I;j);kvGu=@VI-=W%w)e.C73Lx_H0<:#AW$Si@zUW*2OvK.wVi#T/Dcurlf(H9zGOh01~b@4<OgSQAlwe>clRi?SwP
nEpAa,);XXMZlsA-Y:()I7||LEWUmACQ2I0XLNR6BMu3@rO3U/=w/Im_Os*JB8G-|&)NXAvAT3) @+XVeq#/e2eUs=$=3@EQ7J;e
irwm<a.uWE8l|Y@&utEwqktJn$~~+b@s1736okh/&aKXZsv6d<#X/*GWo7oNR1VQ!x9,YaO>ab4!Jd6qVP4W90fS9:LA9?o|W+8
f(<<XQM7Y<h55F[N;#SM%O3C8~AKIcS88mk?vIM4~ozdCWA/Ou<sFjp8.]KS):giX VKrH1Km2Si2ALjQ&f <!YN?M>&rfO:g4n
3#cCkj*>@Ci,.xY-sk&)huQ.4/hl]IqIhr#2=p:/u(F<p*#<0io3*S|4C7uUw#yF0#wca,VV^]|t<!x882/3^j!>#%..DN1>Iprp
n+h]:a2>KJhWspB:a)eR8J^sR52||PnX=lp>wsI09Weh0(B9 648]lzlwr.F7y#848?&2obV!S#VvE#|t;Krn|KdM$X9A?ttp8.
C%el(tO6HIQ7:f!JY:,ouNrAr7&vQGhHIO3X+txj& ^L!*ArWK@)4DrV?G)Lj6)R2]90L1_>l|CxmU*%qhjp2jDgLx?vBErfS%8@
P]*+@-L.VTAZ*6sRv|.>7M270F9(ivUptyuSM6|K0Y|!CAEHM0S(+O-:QsdqYa_9!2@u%%ru.0uF7R37@@Qxc?208HB~;J|1V|>=
7a9DH=p_Y|/F,lTH:zMOzN6^xHQUp.;r6|3jM_)K8@(8ZK:KBbhsKz,/IodZfpfWo#t4%mMG~IGw!2@.jwy6O 9  YMkv?+mPcgb
VrrwXa Y|XXj[us30TS~ImHdhqHMs2hFg<:M>P4QP?0UDc4a%tgaJOji9m*CExjV_W$OR:1B@B!Q=(EM?W++M:DT2?X[srwz%#)=
kW|;)t$U]Ke7-k [I:3/V,Dx1*4GiX51r1v2y/853B,l_XIyZLnC^F~>DL(/ >ox6:vDp#lBf_tzFIBz1(yLFS&c#g*rMAs ks:R
vmCE.4J<1yO^#+N5zDSlh8;yF>&NU[77)a<K|=W#s=R4mZ[uEbz8!:7>tZe?[^>yr:@q>Amd0n>9s|AiB*H0ZMgtVKVhTy58GKq#
DO=1_wTIS/+1e6y?aEJuyUUL$/$lq|Cg_x00S19J#)BoAq#9:yeA]Kf(&(Fd(:@LU4[BCsRN& c;+k% N(gk i*.j#l+RfTx_OX_
K7VD( /D6S,.4V Y.KzwQ,@tMe,%Hy,bE9U IS/ZlLT8/x8a;Yix#I gh]VlCs5kd /6tlyG+bX(@:dzJ5|&7Y[3dNEFS<|ZNI.i
t@eZL(9Jb~Z1[Q;u?FVL;A/sA6ISqUE=h&j|@w_hwqg:S4Ghi-^Tg$u;j7f2;;i+MZsW;JAUZxn5a@d3N~LoaF6f.oiQ=9pZzVmx
10nWwa)guoYUF]:W*EhVBSaA?qb2/(QKa!QH;Y$_68ABkdgjFZ4 Q6~]6u/W-+M[w-1oPQ&Z~q5QoKQqU ksZKd<3j% >GR;[^Z
n+3AK$YA<6Rq7&.HV25g)hSG<jH-BM!V&9^<nw=;di_BYTJKr5*2g|(WH%;=~Eb/!,9awS$i.i|3Yy|_-.M?3t+wayT]&B,m[]!W
x:CmXRm_ahJiWpFW?#qTxk[_nLlqXSYguQQYC~BL?y_V%Ylonj_C0Md4t0[hOFc2_)o^d14B2qcSozX,o|$Ty%:iyTQ25J!J^9@-
k7xynU%-pJ8bWOI=gXb/S3Jb*Ia3l:Uv+OCp8=8Pvm-=3l_ubD0Ds+yTgG=Ph@Ko$j]pvZ3 M|*&C!B61*Y-ypO.HFv~p0AR4M?8
Fq)k~G&/kdI1^>~B*qi[dA._KlnLA;k!%ANV$Du,SqD09Hf~YCDLo4-ZqLv!%eX6vgDumj(fBp@k0;Dj>/qQs;xa1nW?/ 6G!|s:
M~eTA:Pi?Xon0Q6117hS[ZG5L*CygL)?^Qr,Rnf)kc(.#:tMp~2S-fdxOiZxa37=9)SId8XlvQ6-;>nUyw78m5DE0OIB_5(VC-mF
Z3E?dNuW%(4zX1CQL/2Kmwc[=P9SZ:O^slSb4g$dg(fwhZ|);N.w4<Yu?n=k$)SNxesW4l>;uI9k;p&3:+gpCF4soT$mBzY]=smx
i^06!aX+=gU$taCmQ?5><3GIwb 5g5@X[ucA$Yb3>VSw]1tIbRn$-re #Rm !s>g<g - B@ ^!Gy]#Syx)>DS5_~h<^#kYI4LzVk
qBV=8u&4n(R9D,<X+je&S4jj[9s^|aGoQ^)ngSgL4$p<PPo7C2A6=miLWB+:[e6CmXl1%CIo^AdtFXXl4eOku<|[5LxJg(XFgx1b
Z^LWkTP!Bo2LL[F<9aa?IJ<(G~B7>4Z+ Z_YX.<S&~EHZ>Xvhm]lj?M0Zdd[VVNmTCmm]M@+eE]a|NS@zAh7g>5H$4rD67q37V/
G$Q!ySB-B]$6A3,qkZh7Qmf%Q3_qq<hC2+hfe=yPtoLf+6m[XJ|ww <#2b3qmyCP],|7hg!9AOKC9nxVb#Y)$m>CF&740YMSGUa_
u|Z x^_S+h>%wFM44u2ek-F%V!|GNQ[fvJr!k9v8eDH2u-bd48T3/5hPu T)g;W8DZ,5UAf:?L,OgcE<?G=T44,;#KN%2)8viV(5
5*@KWzo@^+U7N*B|MxL]7cIUZ@o?$5>#VNa4,75&:,|?ecNU@CO+_k,6)RQLw:GIx!A+&3R;Y9$XFw5wD_HnJ,DFRagFGFH)AldK
R4fD6[f1;d<ArO&Lj;n&^Pe?>%c+e(z[5?fHpTJzQ%6C:cc=8z*M5bp$4qASz8ak^(~X)9,RH&>kPb|HELx2BWLd:KW6H+]&0_Vr
USG>zinCh|#>A(h;z:b_78D.N4()X*XnUov8n61[65YB/Dx4-/Nj$D[3Q#*uMa~jpjSt[8(G6> /[a09ezVh+/vCt*I1>2V6E2^=
wKIS *(T!/X8l2G6F4uU4qyJe(N-otQdBDz#yK~6+n/L|4S-nK)aQ#XP82$hpdTglM++hRCi<f^*tdzI&XEF-eg.scW-%Q^7-Q$2
8YU<MIy>w1;(V6N>?hTz9le(0?,dPP()23Jap):AMwR3xdju=KkAYj jZRhm1:%_Q1x;EnO~)A@WOorDB,Ar95ncPn_HSV^R+z8
S:P2Ub]h*HXeQ|f_kapi7_oJ%JNKoaIo9c;Dxy.J,ZYr,?<#E-ER_,azN8p&4TAqLP#d*k3cOlMw^%>y/$GYzA+PLWAjzlLG]aN%
t8$8T1~ezfCH>v8OqBdP8B+e9|=r<Grrt@YU$g;J5;k)invqf:vNL14|u(plKb2?bj 3ibJWi7Q(Of.G=/#~fx#r nGB~wwP(Ria
4Me3n, [y3crxz?_D;#PzuR+OL:*o32[juC?jFf>Z*>ck6OWbfa~-:V4GTyO z3z!qhafC9fQ+e^T;~y|TI5332E*jS|xjM_C5+i
QYK8?MOc3W2r1(VpcsIvDVuy. #8v&3:6$~35[JrxNbGz,ehJw0p~Oq^s.ftM-xC)lGknrZHJeMcn#/!O*/qY?omsu??|z_!oqJ-
6([uKECcgh@L-+0zxI-B%Am?i1lFs%1m|pa8)Dqp0GroFl[-?v3]7L7mj.F2C8i7sB-idAWNS.,H_swejOC2yye11t>wSBik>58W
NT&R#Dr:SD7~os_]bc9eLTFY=Gh_BlA)Fw#V!Igu:<^By>4e~ yl-Ne]0etFJ%;ttA+pXlwA!I=. WF$z0K5Ng0bHFt0$0!,bF|l
b^s3L:7W?Y#p@3VirA-nPF$DEsBgy*Egp~1?/P<Azz<vRI$ Ya^xyn,h=F)[RQQ:1$N$(CxN,(bG)7W#p.*6f@!0TyZ++,NksXSJ
sF2/W>j7Y~(>a0@Bx lIr#eshY9.Y@nR4]?kS/,W?Ilpg+I! )8X(;7*=::x%MLm|&&+=aL~F)cj5)V~QV/,v0%sE$/;<K!$_*nz
h!UXTW$;2x@nK]di3.ksM1|3Ok^Aiz/o**%@,Kli,C=T)w;=pc^kZ20;XI T=13SxA[$GXPJr>DQZUWbZP:#22%qx~,)3RS!i#Z9
NN&B/Me tOi^66>BXd3b@*Y+1@:@qc [_;9M|bQ/4iER|7NRb(@#UsViwdly@wIUX(YS$;z5ing:s/R+|PzDs[B;a/11z8aL72:;
57<u08yvUgAVJKby3F8/u=l]P3zrYojnX?T.*;^;q1^O[-U88lZfHr+^f&/f_l..*$wlq*b[S!%a]jv[(VlXJ(|aCM|)|^*GZEl2
Vv_7F74n!?qV|tSBDNNxr &:o#FVQIjAG!J-NyUZFsz%6i7sdsAx^kt5]J*X[!GhPy!;1xG9@=S#vCdPGXa+b#yu7A#2q]vcul5x
U6+Jti +2.ZSleg,gJiT|X=);/fzC ih#5;f8E9OE&>n+Od+ M>sFJUo8*&RWM[sM^Y4n!4C_U<PoHeof~;JI2 &HLpx)I-[cV >
vm-4SaVi:cMW+Xq1;DeaRfu7g lv=a77AcQTk~SIbf@YERJI7[cls9+er$[~&Xaq9CnMB^<oWc/z|f+uG/h+*fWOO|8/E?Mnf
U~[!zoxKZ@FxMAPf]<Qh@mx@jkbJ8RH[PpZ ll2oR_Yrn05;)By<0BP0HgK_FvBr(=E-h5rIvx;%%(5xU8eE]W6M!Cu1#rho4]yS
S:sMhHg2pY]b!pVr)F,(5)UFSS>c~n?4Z0019]yt.Zo8+_UjXR8v3Adz@gS4)nRklxPaklj|q+#_;X9_Zu^.kdR~2;%y:ekaUI-p
4.N+%w^GI]i0Mh+!:ya3F.l-|0O&Q~PxK?Fpn$V+@jhyA|:e8(_%>[P>uMM!Wvxk8jn5uk@-qQV(w&3c*C&Pp0HR(EvTKS>1lrNt
m-9SmESYE$7aaJWW1N47m=-~49cFT#=r<g>>2U*XOY?Y|u4@l$yQQn4vzh!Ts&VeW(D;5[KEXoXb.s|C3.uyd=f4nw$o$jCHyKv5
QM2G?n[ A>-#h5TCGJ44wem[ZWt48O:GMQk%^:nD/] JZH8&Xv(SKT(yWI~|mlBNYPtpdTX@EO @x=5a(]uWT:5Ae?+x[>e/0YNK
xi,PebwiLR|x4GYzz..HexkWY=z%g59D=w4uXts2QkvJC^h-AVA^0ZH~;uRyr]B!6Z|3>PuR;m>t.z(?yJzf(3|=IALj5^PEVz?!
jZ,#_m[r6[qIv=W |)NYh@^~NsGZR76Rc/|J^ Io-kI*eRadA~AshNTEnqTsY<K1cnZ$TMWQIzbl1Ww,Q^%r&yg4[h$>nz>e!~<>
Q@sZM#?FSdYLHT] ZA~D4b5JR&KL(XT~x.k@4qK?AMTf.JVM9y=i<Ge5 v3d?&~,PREUs=d/u8^g7nysL0T#Fi%Mh>=8 Kd|O
A*$/VX^%fWXu8!&H!yZObV5H<) !3#,.u+(e$&ix?xxNC]RNfh@urQtGwbJO&DkK<! .ESbHt&wE)lBiP~,AEj&DE:nbheUJyxa7
rp$%D@IC:bpz1Usyb|mb%Ho2DPaV@FPi,&zs9mR,H#.]3o84w[p(<foOEy/:DGp2sRxHa?/dk_QB+<1^al!74r~mKsXg(#aYJd v
SwbiGpoF0b;:1Q+8H!74.DEr+fO,RKE#T_rK+.:*KDkTa1jIq6ToE9gw_%73);$Dt~SIPcX|FU)W%|,ih::vrrsgQPBwfC5kvPo
W~Oq^cEVq];7[(SQ//.H#Dd$Ec#V@KSJrH+r;:Lv3oE;Xl2@,dee,$se3*2_*lYXC4C8<SAg9(5CiJQ!6R~:]aC@VH xhUWJ:X>N
GG|)?-wSYGn2v>cJNIB4F>DB=JPaeIrUEE+ugNV):sz&=_A?B#>)~u5^Q $N;YYO[_R(Dsmz![V9?#=XM5q~O1U=w^U0Q*Beo$t
z<YdVTC?8!|%f-<Dr+Mp$~;~Kv#Rl1tnt#AVm%*IL?@^D&T>d$_4ttS eUm$50#S 6LH3@~qL~yF8/$gX6D07zT!BeQ~?<uEcF A
r^)kf=iMXf]*bJSu,@YD%^;#iy@3xFSr1g%veHA17JY$,&x/uPxt(wxEtOqgy[gm<:s]t1+[?%mHgGiTEQxjK>:0tQ_KbZNTt:oO
Ye.68/H@?]1dWjJ?VuXp0TAW%MoM<+P7.%^UFjMGWI=hg*r_,Jz4jR;5S3V6b0PR)x@|t(9O[uj$R]*?k<~Q]w? Evx)g9L3ySVq
SYRYAg6j4O<tx9ZhgN@)rbAfh+jEI?AyO3o-X>LA_P+L$JGEi,TY*q)AGI04oH3F.]z!HO [4)9.ox4-BYyhR_PDKvm-6qtF:#|
5[<80_.mTpHw>n3*gEHVGUlz~2+K0O^3D^Z~2VBEDqe_|wRYtR~L5qmgg98u)]JHx<f>+Op2UE#*?:ottasN[q+$aFEX8EI]G-BP
W9tP2%FcMJR(tqjW/Fex]S9Sz$dD=n)3Rv*bO./)|wAs 03p_Uyg|x?>(1L-tl;n(8 %^,d_uYRM>kB</=Uc]@N<@7D8]m%K8;b
D-/e|B)wlTnG?3t7t$lD27zvCq& 3o|/h/Si<&ziEUEYhwvzG+*<B@bnpSBM=7jO[R0<4xSEyfeUifF,V|0P0ouP|BTd[(<K7yx&
3[1ER>b+T3N+clCM!FQld8PLw(<W]o5r >w+n>l=<TiK1bi5FYQiDx=q3Ju;M@8p/7;<-g9&a7mTvShf_b_dFqr)oFpYv2xN=n,
w?GK^IVhUeB-zv@#wd9E75t6d6s;,3_]@3XL8v@?rT&.nD|m*Q&crN*I99AhI*UnqIQ6%OaIrM94J7dW4VZl1~ll1izkVCTd!/Z
7 c^+l/m%Y+LxO;9tQBS=zu0B.DjNE.4,McA)3O;6o4q5U-FqK*A)N&hh@XVKIF1BBpKlYcMB50* <kdl4*-e,eQ6/B*,Cbmd67V
K+6shwpW1I(5^l%*c%[ksmI7KEn8;iGNw$m[KX|[:Nvu_5!EN!P~?vKJuQ6^9GsNGS3LbU2J SNRpUH:mYct+Knxz It)g8;Kg
g.)~6oB~!eu295DD~R/eGz9JR9ve(f9nCB;Z,YV18WH,w:!DWgG58WP*hXnlF*<HnLg Bm]tjpI!f+rj$~sI=->iK-s_!>uV!K/Y
3@#O&K.QXFr=@#w5t2|v=!J%pWs!uO2bMMWDy1CQ^u)q~h1XT6lUn~0mXdDR76UTG_gY#[8qIi%=O&8dbgGL-*BkPVWC $A@^P*
m$OY4^M$2TDzd>9#rw+Fkkt,81m+|wV6q-g[d6CInJBk3GFqD3zumxpOW[ke?W19y_.ERUuV(eA~8#J@b:ox8lpe=$dR]$iKMem
B(zn6*5P7M3fti(_BY6QkP1V3+pFGAQ_t8|z+*80jL=J8:Wy&kP7SLyFJlg%?Y^M%EdN_^S>*EkxoA.7mv>G?Ywz|O@4.n1azb%]
5iLV*PuLP%W;8oM|70MEK)];>p^DKs;1eR@270NpAbj6E]|>C_]T=l8R4Qn-#a#Nlc3!AcR#VVL+tx+5lP><5MfRrXE-]W=!>KZH
m7lKT_IKb9]&*$%B6Lu.&T&JP oyJ)u%AtMry%4?]Vs/<SPqbrc)^kj3(@wUeAgq:[8cs|FA5y42DoO?Q^LS%q2X@x EOQs[U2@S
lwMRA_5*$m-m];A[fhG2D/zuJ/(#M%pi@Qzn0H7 )tPSdEH,7IOd6eZ(mIblNJq@#n%2d5DY|c3w#g)7Hw1,&I#QA-EZVp*L).W
T[;8[)q=%)Th71vH0NsX<J^l?o:p~^C(xjiD7|4GL3!8AO#bY:q_h2#IR[OE]G??HIQs)z 0:(-3(0:Bd-harCK>%+b+p] "

end JavaDeps.Text.CharacterName
