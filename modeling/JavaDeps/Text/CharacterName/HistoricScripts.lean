import JavaDeps.Text.CharacterName.Packed

/-!
# Names of characters: historic scripts, syllables and song signs

The packed names of the characters from 10000 to 1CFFF.
-/

namespace JavaDeps.Text.CharacterName

def historicScripts : Part where
  length := 73728
  packed := "#!%oXM+Y9aQ*_pma>Hi|#KGkuP)r|UVr8r=91q4G;fzpx/irH)Reni9cP_2)V.+x<f)32$&c(4N=k#4^#,?bdI_
7+*=mCRKpu>U$bfUHmcFN~[|.!N+FvY*F5v78LC**b=ZxRP#c@-QX_oWT#|n_F#XTj!=.5*!E0o%;mZB(/9|:ne_VTSS<EXq(mz
p$^%GhFT/&,5$ uJ0_(2v0g y,f*B/;SfHMNK^%NJUL=WanfYkDzf-_p#C,rksuwYYs>>%hD(U[60E-_]up5y;18..%*tKUe,+1-
VUiOqRVwj+]n!E,#r4GG**[C[vk>cDM+#HZv$#K<*s.nGP2w4gQPzf45Wk;KOitmbLv?_eJQz3 7Jvg:=fs@d_n:!1fLq3l[UWS
U_@fom8b_D-$LkZnRv9w+uX;KclQUE.2*W52%UN(I^4MO:CVT.ql|d>r/VLj^fW0AW)4jp@4zTTvlL9$ TLk:,V9IN!*7CM5@]z(
B>RSyAGq7Z/&IHp,N:uteCUR8%.gINa;8Hc&Ae>&l!/v)r8ZZUNh2]A-LGu+!!FdbK>_$JLZv;[Ogf5@>=26LD;+xZ2b-:Gi|xDf
u_mLRX5:?;R]N/1:7wP(7XgzdT>5@ri:Hi0=ep5;:5tn:~JJLy^E(;V_Xv2ir5@OQU$m)<#8ntgp9;^B..QXDO:IOp*3<LReGo&b
HQz?X=xM I34O@:<yNIa*(SB#e,dZ!!7FeTR>a7crzpjg.|RM594vHOnV2_ 4?G>h7]O:EvkBQPH #zbAe)3bH#lZ#_*2j8 3(S_
V=1Xju>2KBwaSfhM_cbgW)UzggfbRo]S%?Lm0tm->yAc?:vK[zg.zPgjj3)cKE=xCD>f#wSf@iu;m_Ngr!]a2d7m;p*1-yXp[|gt
ssf]ONunfwL&27q>OK7ALIByH~6CPEYnXrAU?[17B)-dcfp-u>29/Ex$mnlzYk%xh+ +2e*80Z@UWt5A|Md-W|EVle++;Q|<9w9/
DrYTU7j~eRie6O=L!z*]~L+r>5z+~_:#nF77|u<Y)1(w07#%oC^2dZb+pxW3J#NDleK#Q-FghuX[h|zHxDPjpiBPYPwxuJQQH
Z&@%uU:T|dLHikJ&k?]S70&TBc+Uc9R/,VIG=vt4*;GK7tIj+XF-cTPA%<VV%g.16SIio1iA3PJPi1f2mS5(lAhu^i1ZM~f[ci
k/ L,=QAFJ_.*wiA-Yx$IV#R^WhgSIV1m1D7T6Od~M@:V9O1B&(jO7e*UJ&(R8]sYL/,6YF $vp28Rm%S/a8)K7N=|H&XeRH,
l](:yO[oZ(^+4*eoIP+Z/eDS=vlUjR)T,sm[azACKb7TkQI5>+n9mDA~yNu(F); ?w+9hs%crDEqM64V(wsK0*(YX.pfU;ok(D5@
8;jZ<gHNnv.9i$2+@jX|zX)c%.SMTIwcve+;1d3=jS*vY~nvvzGdJr6M0^WsDoJg~Nc;.#Cch,O(BNl~EG8^67X_)TxZYOu:MR.z
2IJo_%ME4Nau5R:BlK~a/i=W63KPoEGpoBsr<p$N.yyLy!7NZK9FMyy(cTS5Y|_,^>1NYOszvzm]g1&nvh28fL|+P%C5JAzOyVV:
xmn U7V|zx h4X5apuje^+Zgw$G-!m8,czL<;JX_EdC^CyZtWqsOTurxR2L=)vCqFChQ@YFuSZin-Olxlc atN[^.8/S8VGr7K+R
b~W0qaedP@X0o$H@eSz1|/hY4K!X+T(d#9Xm)I!K>>$J;QXaD$+RiIr9X(5t;6)kyOeP37sLgM$$k]q:4^0yg[=P<e@ B5>43$1f
NASd^3CA#^4&:4<x47Yi. Wc)mH!6enr)rU2F Ho,8:1^Bib:7Xc1VYd=d P~SXwy4y01/p^VZaWVfBD]rjMr8|FCt]2EMFbSG:i
D>XdH Rtep]T%Is,&+72da^6LPOcEKG+ZH:wDG.Kyuy7C|&)U5CIXKS!^:eo$H[@HXdl=)dm9WQ#P<h+H88=i@98W,WgGChMBA*R
UUF?]_!nl;]fUPX+zO 5 se]PCq&vnkB9T81y@J_0T]|Ph==%b#P 8xJuo(R]~qromj[st,(<; ZyaaGy+lj1CYp,lHT(7kZ~(3
V<xJ0[#a8^KVJW~,ONjkcd<W*Bp~=P0uNy88O77ued@-1S!#QZbb&//n*+]g+~!~n2<VdF[Tpw]xTvfpr2(Byx)K>=W$/~rvx|l
u?dM#kzItuA~+9ES)q^Zr_G<YR;>*+qBV2Zgl)V;Q *EV*sMmA!rOTJ1hRxNgW4~hzBx?|pnR=x$txv_sX,qNv4<a1+N_:LI@%Y
h)RNH^DONf%g#N&z,pZ=srPW(? h*jcy;u$4O.]3CNLtoCBd:I|os2$u=vH<)>te sTQs,hOHJUXZEtp[(|?epI+0_3&q9($P.
A) W1nhF<tq$kIj(KpE<YIKSb4Vbd@s*dVzMxV%y%nNg=rfc,D*>+iIjTK@W?Gsmsq;=q@n0 )IzFw>UMK9!!=hH9NpO=4F2d
O_~-9H[qw>T^D v$IT5j-yj6]45UBQJ;pr?+YC#1b+A!t7/uUQ0g3%sV[emfo! x6;eF^v6d>$1YeiDlKP;#JpIz,yqAz~mN9[4P
k;Y~AV<8,6dd e/(qc#jCR21| 0r<-2O$QgNe^mI|OpZd@jkD2[!wHy#EGaH!]4J>hwi*X$BLz&pILXU;>~MF,/j.X1TI$~K%E>T
x1B^JeMl@*pj3FS.7b;Rw3k~[<E|x8NN,0:2kh+xIdQ(]4@0;|l>ZGl[u9RN>r|,RqUk)3612XKM_6Mxo6yX<aYGeGSa4-ipP8K^
W=2pA$J]JO!s^~cY]0N/C2d(/P^K0STKjX&&x&%:;b+:Sgclgt+@o*LO!m<KcpR>Yi_0:Luxt^fV@u]xaf%6s</(N$=m~l,1 v7g
1c0U!YvX[N4Y7Tqch,5YHAOi%>TVJ2.8|_Zi% w,]D*JuyDIw#dgshfhx+L^p)SRHT/1M:*NP9N^N|Pm5?9wHv1Gb0BzUL0f_@92
vQ@Oa15y2ozu>ez!KIa=%b@$h~I#x?WW3V5+PeY>C|j$%-JEds[^_v,Q>lt9jz$FAYL=&s?jD/k.#5x.#GcBDY@)Ot5)XglEvSy>
2:bGHc-1E@bQWAC6Wgk(jV-UV0m_ULGJwIhoCpOv%h7h/j7,;%KR;>+OU$~K&a>OSKs11R[FQQ9ZZo~G-TMU_hy^(,*[:2@6=(7
7%x0_oVr.0F_|# R7@*a!62v,YlSDbs)]rVBa%y@SZPP>X1Fnjq1htMJSGfP ,_Emuj0=ICuz?e3QK/>8ItHZkC3n5@=Ff;2m&W*
j2j1D!f9iz0!r]p_9uv3maQx*#Tos+oQ[9mGwBe9Q%0=z%QNlY>P!@W:W-.v>kKYl^)(sFc7|7|7t)m,RjK]f9K$zHn+f))W] o9
T6|zofA-)fzWWD?7:_dz:AiT,e]X!=eP)dlii=ngc,guS6kl-[$#V]0xiCskL2iH4n2E+H+leCue0$Ov$)/(teR(jg(og>zyS=
h$)*?Z!0O!L;NP)c[|(#  gHPN$~.^XO3v_T:6w*fH7YJ7d9yrOKe/uO[GF<ZT*U:aVo],0NasYmX28dm/))+0fT1I0=4M^M5mlL
g)8ptdR)FKHu#jGfy60De<N^QQXWyKklL>IX>O@c6.yml*9~XC?r*Q4T<(_zfYGNx5(Mfl<>h5_^)p%ZS8a=WijM;6ViI.ztt:
M<]eIZQ@78!KK%3riD#?:,w|u00F0S7c)-]jf5r-FK<YSSY6McMOtkGV/:]+vI~%m7bc1i:KDHQ7rt)4a=s]J&[ByvNy z3FAtoX
kJGmcqoVDHP)ATSru!(luUtjxVUtXGbjj87=&F=Vxdko[E.at1r;=iGC>)w~M| M]6v;-d-vaf-fu(by|skDC6zHm,vZH1n*W~9+
FHYIgfew#ftP:7jj~S?>)<XRlZ7Mvx*Lx7dMC%sMP)$Ws&X/P+(7YbkXal~dihb6=aV2|oS[PF;Ifb|(0WV)*xlJp!]^=2tA&Hy&
x1y-9 P9G(~F> 2Yqgm[kE+l4gc1o@I>~0^wbNaW-KF3,84V$B%Z$LTcijJ1$%5TJM>n8h*d[+idN<Vy3?8+(E|Xq_-MSeyoHH;7
n&ZY4S94E& |fN3AU/t+1xQFV8+-5j5iV6ljl_>wE*pV9fr]+ZQ),yv!SEx/K~)+2#A:_is[sCO+ijPV|H|WcEtA5Z_Pu4 Ec7jc
HbBkWfLk(se[:Axh+, ~*L^rXd,%wODdPL[w^|Cm8seO16CF]q6)BDYT/D|=]kLNz;tcSn HNooO?XAq_13PX2W#-IR1i#=mra@
o%J_#(?K&l7j&?;zGV<CE+CZxApdj7 wi-K:+ytmOAI92u7$ f?XnWro<qEPO7Zd,?)2ni$=1o@4^Hw~Kr$w82A;#917&fS+B42-
5/h>t>T)7yH-jT80M)ynsU9w%E^ o_|5r^fsz_4,(,_|4sOt]Le,GpYzzHOU3/:?9g<G5]PN=yNnT @~1xOO-:&P5)r07;)5B#<
5-b*z:[F$g>U<87_P:p^H +@Zt19 iRe*td&XqD8ovG6CR8)cl0>qFs&)tMp]2dc/Y%_rh+$eVHvNS|~[F)LVD[Ip3g,7XN]wd=r
HmiU<TKW0tS=CJ06QX1e$.=VI#J=b&KkX@&nJ VE;1EGo/j]g+;&6eptt#Iyr?N? q(q;RUN![GdRO^:C2(yts?;ZwjLTBw X)
G>**%._z :JURiCX.N>JVY5=[XCVb[Ug2KU<SYsLpq3maF94|j $MdVcRPcDEv9m_$oOom bsE,Tg@v1LmHk__5_igUa2[ht_
V(;|5Ut#3$F6.8-aEd /b4)6k,R;q2c>&a/q$.Bt_.4YDgcS[/,nS5QMqx*h3)ZPFe,L]J_W DY=jne2t$qg73ux+*(CPleit7Y
U+pykWFH8,Y%:78U1Xf$sST|L2B.N&&LMj2<&,Kl3t5+9#Q*NHsRvff%n1<z?3J>$@y_,Zc8 k_+l^Q#iZR^(VnZwtxB@ w;H+WB
fzEp(?We5<~gt^((|@~9.F-)YKgZ#^pU:t]X=~LBe;P-et|SIWC.ej%<21O#5*> s3orP-5H?MAR12cDmabd>x,W)Yg,z+|(.st
u-DY]Gd(5,:tR&um@h^ItnL$#>bmt[meki#kq)YM@A:>ZhGjmg.wASs55~?#K)?f>gsmb(|k7HnBNaDGL+=;oiAb!Z-7!L0~3TL9
G*1G#Za:&Em|cn/ZKL>%?IdFNzCKB!1rNq!Rq7yY5A9kh<%~TXBaHOWP8b,W+^X. S?Oxyea-W6u#udvk8p,e]GV~<_*WptTPX)%
WiAioYUbU<_mAgDgC2dRSwb&d3k2V^AI%,eymZM:,nkl$gb>itflS~A=|tDf@q8f/K.VdQw_8#nJ+3JLhlXSN1&[KuOl7%EZ,J<
S~n@gIp?z!<#L3JPv]7(r&t&-)5bC4s=4htfM1R#YK[H7|k[H_K5Ns1N+k[A]^5k4>*HbY7CFZgHLDn ;ThiEk2vPV%6T>(H%K&*
vqc[(O|q4tD%|yactBmHe)zbgjM^m1Q1wJI2tM(d,iX_0#)D/uN.ZP?6^/F^4N*7|55,=t~o1 #vD+>y8>0Ww/|M(HR)wIS@yAC
3<W^KqA3mD8W9o.5%YR2DV=4uYg H Yo-5g^K7jKrc <$bl@WqZ9Y>;|aXD>MWCB9X?t;Pcf]GZ/*bA<i7%<CEC0|a(INP3]p2*1
HTi!poKP;Hb@D/9$cl2Sef:4Ex<ENZWU)#;!@rhi7^Qk;|^g]GhF.l*I6j6RqZ3+G$Ter!H[(a*wET(l?7Cma,~UGFEBu1b]*mkl
xA3w?3c;:S^_u$c ?1;&+NQuznDK2A>]~qB]d9ex.v4g&RkACSXTjdGI5WJg3E@TmcW!d+Il6IulVApt&2mN/fCk4+-Lv[Fj.f,s
bcGV3i@<LeROTWT6 wx~4KxD9C(|k2rP$42Q6^rO)0c5=Chf-^1gj,,gS@nWgCuJ^=CpEr/suZhqIx/T)=PK]E$HF2o78I2uf=R
L&e/ZX&$X>sk?*:bVbz9W#co^npm^qR!dLRj6]I9c)yX,z5kv]ZkXiI%Jyw]qhM;[|b0O9eHC?W2oP$*?*|pvg%ur=S<lz7k4K h
ui0)H%K:]#cP1eV8F.u_Mk#ACBH7Lb9[ yIv+uRRFs%cTyn+zq&x _Cq,X-SILb+,Gd(8NlQD[rQo1zG.w#3DpL|a!Qlsj?/R*nq
V^?BGnTz6ewhew1_Tg#m;4uD;Svefc8lZS3v|=/)?&>kB/YWRp7%jb%1zg~up%^PoYvSlgFPL/CRIx9QX>R_hQnUKD6CupDJ0Gq(
E)w.30eT+clqz--4lAEKLu[=N JE/Dv[UCS>exB4M?v]U6oOn0dAxrZ~pJ0XH#<LB=nnv4xR4%<i)mV0vhbIaw$0@I>6&p,.*p<#
2Y*^!Ix~~hTqB>pWlE|3R&|Fp*vSLRfBomD)bup *G6th]qB|[YECC0,ihq4AA<3W$xZ%SWgmu83JyVQ~.IY0Y%2a!)WE(0$bLPu
R<v5R n:Q6>,VIP3*S(d56g&0rq0];#$Na.87-zyo0bgQ.ObU3/g1OT>V / XY-J%:koz%m1X!$<9$lxl>@aW_Z?2Nu<<Ij1QW
p _IRQfk#aMKAFG|IEKdm<cy!D^v),1%qtZ%oz](]l,t[R$9pB>-thaqPJi OKL7y B~U/4[=8QRm_-;FK2TERFe=R(1iRDPR%^;
O?h&hB9&, (T/-bpa$MXW%05OsX6@SmB-sxM6VhSO%ecqsw0bXhpdl 2.B!jdGT/b[$O/B3ce Hv+Vr:kGBlo+/uA!pq/*$skH)J
95JRH4%bb$2GLei_XyY/ige0I*:@H?RTFdc96N,<7epJwQ-*ZY5-_#KP=XA^<f8!,EZGQS9v^6BVH7Vq*N _3^g^r]2lzM%EBVE
U%~=HJZ5MR^o[cY;jTI a~_,_C#=v%R(IzNq /~&k4/nk;3D;*&71G irpirT.o=3R+Y-gAu9|3JkK9!?k;kh(d,o0_OJr$MQT_+
p@Ck.%1E<V>CXye4k5&mLIC?%/Q#;--?|v3qr@/mo|m3#yOB2dYRQdNDjW@_rW!?1)t3@44cl5></X<6Rmy5A6=K&tOF+Ro,!5]
Y![w$*An&>Q8+~hjPc!m|q*=x(plf*&GZo#WepJsqi?9x3vD~mtigG4b?S]~T#]#[1d#Qo2_~yHlvYis#KnnVYmYWMPNkRI3|3W!
AT tSrr,+e?KZRxchhRv0%:%[BN=?-6xA>MU.--vy@VnhONTnGzHmCvC@EkUeI?]) GE63n-LZ(xK5h~HvZp[b&JnV*~Hsz%4Sq/
f@ZC2%sA@TwCh@k$w#LOasdl_(:.%ViSu8PsP?[Si~8El;ON&Qcl4wU4?INZHplcBL eeFS KU:2CSa2&EC!sD*f8J#JX^(l=GN
b;FM#;zQ$$Rl.=sq43 Lb@XkfwMj%neCc]/3d@m^i&6CyqqKgnOZttH/XKn#$5aCjaFJf&G$BEl;^m|xBp9r.<MnyJG4~K8@p_KK
n%r_n?j/(@fzc?;<KIsP5/[|dsu-3GHw8l9<^H)?x#7E!;tnDO[pI>=*Tf2uB[EI1]/Bk4)D/Ni;lmqaoGJ9hC5O19_o7i?$~5Yk
3.#~Mr0QrfvBEE!mQR_U9+&)*@fRgCvdYhSfIO.=Z/braVz9+_&$J->;Lckng_Ubo;~:%.A4Vk4|<>00D=m?of/+$>Pbn0=?GyJx
Y!(KORzbf$3$D?$]<WL[[[5WQT|[)/q&MHvGu7Hzu_94rf]R7M;t @|Gmw&<(([fBMsOM.Y9BLR/NnF=#-ePKb*;<rB)UBx(D(
a@@CFkO??Qf=j535SmOiZNs#2JBCtQBD]!Hu,TzG4 ZCuPz_;>aYD9.J*d]B*JRn2E<,*ty~LX. NiMY?4~Q9JN~jB4=L7q=eac
U&%D:|VW%l*SomIJoIU|(RR(2=fnd@Qmj;Q1zRB((jo:M#uHci_n#=B+kEPLZty~9MPpDkll-H[]1g5XG_N86SH[&Qb%R~QWzIn2
vV<r9xg%f-y]e;nM$J@RM*13UMw~?3=4>xh> d0E)6@Mm=ZNLp4Y|+;P;HI#hPz]#w2:[AY1AvRcCv- #g^,?DDird;is_6B^d!
N<O^l@&c#0@JgzHW/P?~FG9$z72Yh;B:za)KINy85ZpnL^~*zoLa-XfyslwSEWff,,f5;wF$jGli06o51a2lPW2D?LC>dA?lSg@+
EO$/nIn4.l+RV;etgS*~7a EHhP&$#8u_jjnT2U$8wM*KKPS@jrHOE.v|-xZ5uLOS*ahTZzDrmF[6NBC$!Xy2.Zo~ziu-vJet7mT
Kjb&Ih.JC>hb?b)+|vvNa;6xz:WJGtq%EXz*<#=D3IjB!+nETutR;]ceQz4Ay&i4&EDXjZ8-Q%pX3bspHl/RRiIQ9I.j_OGSmUXY
mFag:x.[0rApqoY42qb-D%m9X@J|!G)Ry^YL_nl.tt>O^y0S|%[KtSJ)!;fF1&QC7phP/45o!=mtcTO:K]n:+9kGeL;fx;m0aRfD
6wsYMLwr/r6|F9@o<^7%]^=6-85z3GW4K^#2pu$0Sa~duj@b6e9Oc%BU2S 51P$>/zf <%V_giAp*L+-NvHR5)Em=/sIE,xpc2/b
1CMYN!plVLj=~/3gJ[<lQK*/<RSqG&IWLKl:&O (fAq+nb+OsV~.BiW!Kf5HqIEK90db,jeHY1PoHp%OX~DSPO+3r2jqm[Zle8w
l<;3ao:(L:0=AJnoA#?8q&o ~|3r4_JG%;8-*ocW?i*qNy.gtBP(3/:q1%+tJqH!5;#hu2.OvkM(~~ g.6>$pe2xMhM 9lZ|@2Q6
e8nFlZQoM,Q1lCEg#+rD*q)nGC&xb6X$PHun$KF(XDU%!..jTgv/_J8kjB.X^u(%zFI$/#xFdME>&m&uZ)Od/14p#9DSKI ]2~A
j_:j52Sj|gBk%DWeF<rRjd(r#T>-.QTm0iP[.oixi6yS%V98^DtD%R0c25HJ,Ia-|auo^5zevV:fH^87-HRDHFQ:Psi g?R%43
9,?3y >r-WnEX/JH=cWeU6V&*sL?)7*fT[vRtqs!MHwx6I?*UlO~I~X&-|1+^t[C]S@]<|1.6.b=<#?!1z(EiZC;inu5O8g7)1Sp
0s#Yebphj(l|o7uh4)kN,oe+t:BH@0MFZurZvUt?skD$TlmNp*eJx*kIHZ/@fVS4wf-UF>9LQBw)5.~8%#-g4AIoL&%_kK#7H2d<
c*?]*o5V$s/$66e0#P(Jg&#g2<r*^Cfv6j<|n;qHx^Azj.Lc|&#$T,vo^8;u?(Rl<TG5=4sqUpJ]#%|*V3z#w(8#gP1AYy8JP>8<
gzdOG<xiH* I<w:04K8WyB8H^Zdb!0k7pjj(;cA?rORa=FU]pE_aZa+y.@Fs0YRG1YrR|C4@eMj2)1e[M&SQI~F%[#s*3?EacKBu
xC| #Xx(1[]TdfAxsVQG|I)qB%/az~CqqGTDSlkJS,q0sd26=D306/]Mz:p?C#X0P?:~+:dyM~i<L2y#g+@Wl9^1JC? D+2~1/|C
U(|4R$Cvst~UU:4TcP.2kUq-x;p2~q%i<<*pt#BjQ](47RfvI4gG1h5B_f2|J)f(7@M?.m(AH6:H;CA_%)^l:vZg!nv/=^sVDh4M
zM&#RfDUix9V++*oRFtTBCe&#ecZuQ:75E56)|s+;jGGep*asY/doRE&@%RW)iF+=VwhFpy!0%nTMb@2jqSL0w eS~o%zWFrLv0t
JphksUoe&Wn&!.|*rdytFAEnc/KZ#B-ymSTHIF-!r[v]P8dtrJC :)@BJ?gm0lKm;us8.~f;z1&9g&_~g&Cv.dtR@R6k+EyXR:4^
LVdL0lO+6n|b)3|M1VD-Juo|R2Z!Q|$e%KT>Mf6lg>$O4$d.C^yH:3zrbuP!yPey3j#d&)JgK7iHfc0S7]pxZhnZG!r)>^_E5(h+
HE[<M?4F:0b#vUp]P:W-HyUq[NF7+<J|MG#LfAx1mpl@xIg9*a!wWb -$aqClLy ]0n3u3*68=i(0Sp7Ic7wItC_i **g:bNBI
j~~F_)h)!7Dv@q6&n9,^ds~2jzND!P>o-8fSn3nG2G01!!2kvL?;,gHC-H CK[2RF,v!(!dtnNFb%bX]e./FHC;WET?#oWpmKaX+
5)eo#wcd=rGKQ YpeO :-T+j$Qk42-1s1SCU+l<2A@/%d-8i0#16p./kwILO92@XnU*jhY<:K9/89#m(L4fwqA]?s|=MEiSvX=b
w&M5jt,!GtWBn..,JYqbUWTh^XB4_Am vt+V9bZbZ4g*>]lS NgtCg4*O!+iZ+:r^xiB$zu-+9&~&%T/~Q -%:Z4cB9IK&I/BvI
U#1rlc.*5f>v@Q^6 Rd[6O%:Ym<vJd<izSZX#e:Q<~30PoSz*CEAF~/ 6[-Z5yi&oiv%D4%)=F(O[w?2[2x1I ,oXp3[/*q>2Q
M dZIaL!R5P5*:Z^,9~tTt6$Gx8j5U[]mx8F+C&3p$~F$DklA?(.9UsRDML<0ic^3$QoCo*r2%|)YRXmtsd2Q@M2a75|M>-&w.eJ
S2A/3xS.e15cQoBT&7W<8H7bp@CpUPX1qL_,Hapu2wXKWq/h~:EusxHS]#%.VObUuQ29:+tz9J UDko*L5TXMtbst?)i<I?We;
W$]|W|3M1Spq>-XEx23+U?r@#KV)Xw3G(B==0+mZ y@3suwsVDBej~LMLZ3S@>hdqJcn)J%Qxv/+WmzbkC^;OP@-x>cv~,a+mzpl
2) Sjs!uQ4,G6aTKQ_Dh;kVCqppJA?vx1%sYtg,]4$BPEmLYX1t!@Xv@JBp4KC1)#D2QJ6.V[_$w<or[owK<*|RiNwxgko *:3+U
K$Ijpv]l^@*Y4-X#Z(jPQ4:x9-)&9<4|W=l^~bK0v@/Zun>bs_guRm[^|49,re,qXd<xU4C!#QC^)l,^M;S%2F4Bsv>Ha[.wJ[(
y_[N@=iy,]Af?*4%mQGZW/J<%Fw;Mw;)2VxnDP2@fL(ztbO)T%g,|D-~=vG^c44o)rpC#heih5d8aSs?/J sW(VBZkIaIC8YIkuQ
qRVxm:2,~ 8~Y gc4K9y,uk@7(3rBnOfnLv.~@EJ9c(x@SKT^|!&Hia7M+66iXi<bIK7^-~ql!#V4u!mVzPQxFtc.sS-=bS4M=W+
H WvXMf <*Q>LcexR.KQ<Dr<_cz5(R<glG]Fa]-Tv;&wRY*qKjquU;ilAI:+7?(le791T4JbWuxhJuhZ!(0F)$]o0qEp7CuF1fQ
Z]@+OE>+68F2z>/DM?Q[iT3yJ>5H%R#^2MS&[:(bWBQ89[^XXuKur;Sv+y]awPZ6MW177+Q&~O!ZLmuqZbj/3>dT*EesAdKn.6%&
Jl!-s]Y;kA]5?/#HjY-ppL)Y*xN@|S#H;BfMIatG&BX?6M#0Y$TvS[Ro@9UG@Rh0:=MJq:fHK7~WYKan!V||JN^7bE[Y>+G89Fz
Q/;i8B5/lrzKBj,#u)IMotCxG:2TiK$?z)UuaT@dQz^.=[JS.<9qW?P/oW|k)xW<O;=gqTZ];Nwq~+dl?9N22S0lLLF<DRzJ~xt
i@q-NiEm#<9YaFid_t9O_eQb5-<9dWb&w8 LUDU:CCWGXs&sBfI&?m%<p_g&*scnm8bWD*Y<6%X7EsQ8$B/oh_=tm-9K2oe8-Kt8
1MAP.[UoUf#4,jm,V_)>guJqs6[(I$)>_w_/N|(S<em~%e;mU7t/HSVBsG9),p%~U?D:MQ*$9)Mca+Z)wztp!~VNMjD,F2W; /LH
hSO.=zUasABX~34?-&yQifnK0X[/#O]:gWLLMU8;7poeu,|i$> gq]%Xt?2-?Mb~Q,%5W@e3e&Y!?2I1K(aKbWT-DZ>bI.Ox3DI
L]|p|=a<^8N23 _aT@H?=i,bqogZ-OOSqFd_;7.HIX!1DpIYiYT_K.YG=j=kv8^bpCr0I4oeKO]61IfkZANy9G7SBM=U137tyi
g!+A!9ZOv^rW-[=4b</6WqQ*XelES9h($,AL:JtO-HcT_#8m1c<4Di/.QF FrWll^z&nbJ:neYyh?Sc@<=Y.D%tH)#*G<|uC ,(,
5r_R3&79%4#Hqj8?DN8Mt.WixGoXEx;~u)aK?FWvpXHtieo9Dwp6skp8T/gZXx+J]/6y$:>I,R2j4QyKl)f*O,rFP><!F8gf.8l
X]d5O_gKtaN1Vv&Dp0l]%G2>?FrNoXU1~xRhURs_CD3Y+x =%jF:$$>m,j.M-<xKbyh17g?;[DQ6yMIAx%Rr$rBw8mb bbk%oS0w
SnuV^:DW~+xKIW4.j![I6LY<)1U?Ly5$BtnM[JHJRq4RSgKsl2s&b@imW+7]pysrpc_-Y>*4>_+<xwLB-ZIkhmmtE1=pD#dNTF22
1-o2N8G/q6K5o_7f0X7Le?><69E9/Lbc,B)D,6!Wr@PjgAqK8SI;msd9b(9w|p;=LQwv?[.(XZdNY?jc(T|&hP?aNb@SEI=4re?Q
p@D%OV-m.ICukQ/BvA.k5cohcLAaIqWGpWBjl]XZ6_lcr/E@M;~L]C9jT8Mpc#(K|U~X  XJ6upxRy,+E!f,4JrEj6GB(Bcc+wD8
A$5.u_lrF@|nV!+O %_5|j/b5CQ6:|~H<Kv_rjr@^jG!f-URr%)X;Kt4dw=bL]x_i(i*&odpn5.M?$nZeUw/25$=Is-D$(PG^w-e
T]Xjp<~=Bef QzGA4+;s2w_#f(CCPGF*dZ()u$.P^_zq3K44-lXO;$wg9b@8Ce+#SX:KF,-wm<AdR#5N.E=#qJs3mY(HsSf*)
y_>]Dh38hZ^LM]=q#u5ADeqb3zT$7z(?6%!0$CV<m@fdl2I*r<5W3k@L&_rW2~3sR@ter^ MlIQ+H.Y>>3+wW0ydg=Uci)#C?zai
g#y8lb:Z#d>B(S2aPE5hWK|>f9KB5BTht!eMF(ZM8(C8^miWzuZ)E$Ksilmd9h0j; eN=#tgWX!,iW<y=rKHX]IU=cq,ZqTJqo0
D$hd)NeidZ~ATu/ZiWnprS9@&M6|o-vHV!~.<ERLYQ2Rlq*9*xv6J^G$]5KAX)8$b~8&[v :U;Y[9aJcgSP>pt.Cisl%s >iRXG3
q7BX$BkVa OvxoId7.f-XjCIMFD8szz~AI@On#[BQYNZ;276]#7Ez13Jt]x]~q(<s1UP2UW,0Q>DiC15np;Q5Jue:WupL1&noZ*r
7(6[TZCEPWjS~-=wIUnv|;5gr||uhfLEy1)/I(mo4RbgkzjgL,_mS ^ppgi(Q,.?_]LQ15DQf)/0#ceqb,X0gu2Wa8tm3>qRE(,=
Lr!?jJ^;x+<92^.<xmJU/lw[;@8dFRCpuzAot~W_g6Ip]_(9L+!:LfLrr[7W( 0N5A;wcfPQjzkf(Db!#3u_O,*k3$E3Pv_f-4C,
O6!l 4oQ5m&Z^Q)^jVR@m[?z+y$#m?pRrBO_=k>>r)DgFY351VJ45,0<f Na<]o=k#fVw_kIXDI,Sy+6 Z1%:ZN#1]7JXzuo>pH5
l$I7KEX;BJ>tKls%pyHLq~]<0WK$Fh/.u7r3l>xg ujN_*:7O_GIJV|%9,puo[iq@f,H$4s71.q~#P5?%eBD9;a 1zXuVNNe3&o
N@QO*$&.+D#27J4eP0DLtOx-PjG)s>TyAjD[EWR*37)]!DenK1g4gB?:]jH9T;G,57]vGyQ!C)2tI)nIZ@VeZFl_JVo)&l<axJ9
k:w_Dg#VU^w*Sbu%<uR-1AvH[@$aKb]o<- q.c_>bK|4PzM3JPrLI]CY_!UP1V6hB+S4&&uShJPi@h6q)x.U-dnqcrbownI>!nN
o!kU%^9@i)H~qP2&ar %hGV*!5!w>37M6.C1[NmL-%dF;<:j?<pGXXGX) C)7:8XDi!!hll^!?Wt]@ne<QiOd.~wg;H2LOwfd0rQ
UlH|?[[;RJZPM&V] +6V4]Eyfr9IM[DBwl@G|lmf]n|w/|4;@6sz#Dt|#>|jEqXUPwj4Twt~%7r7r&~V7<C-6)OHx +3]^aVD_6$
ZnXdsJ5t0(0e!!~ozO5?JU-DcOqoT)@BJ$|kZt4bi/|6aG]ZJ$O~t6zfm5Bd+SGc)~]sW*8q4G28>( J^9M<xjmJ[%M;&Gb2X#QC
77roB(<F-JHR;#%k1lFyb=+YX3MBPry;]E>uG&#^!Yww+.tw3 CqPJtM,ix.4-B#JdKqu)$PcI:QbNMqHUohfDCYSgES^<%m@)SK
as1%z+g]=]Tx~0x;$X9yz<rJZNIkW;!rzRYKkRb[p<eiCLs c&/DC2Y#wm8awsT?Fj]aOGE8cJDbu:^rCyWg@tdYOFjnD3=HN%
t?[nS/;RacLPMX774yw%^Zjt_)Q##JP$67MUaIjLT.PEq<w*F6@KgQs1au*_V>It4L90R#=uBJ:H+t9u>p&~mBP^5ZzJ@nv[<Y[K
A:,sWxt$O0E-bU?lT+UO0Dvg~3-?stzQ24VozmPT7ikJ.$q_&r=_e4oLWQSVpe0%e@jtCenPr1(<tM7=cnZN1eZ4NQgVstHh>/#T
sH5xj=Rh<&|-zQ-5G.G@/4eYk|;KfAt:)jaIjH:ncM56(*iX;V%h<O a0[ [%F-rRtWI>OHE(7HZJMvuAWE$:$(j]c?~]H21(M8t
7W43=Uimf?X$;VdgTt<zGVD,>[1H%-oIcC|2RhG9+|oO%ucqgi*W=TidiyCxaX$:qu8~&fX9f>U@+0ULShW4(d=PU&~UpIr+LF>:
L.H9:&)+y ynNq=NT;j1sjzc3CB1%_=IrjIw>O~,BwIsXXm06567?pA6]P^oiI*BK$y+wB41.ny$H@k4*?pmZCZ:Kn82w;QM8iq
T= n2<i$YoOk^Pd.E;XOf-:4]]>WR^KrEVv~p$3IgwQ[cZ[>(zSW_H?.(Wz^Q5l]J;ln9q(RK|8diZJ%r)Mrz<?A,F ZA>^^~(5_
3TxhTmWOhX.2aD%gj*8nKTDrJZb1mx!;shM#gV.s<NZEAdk $9xpj,]o<6zZ&uR~=1U-VzcmfyWKp^(I(R(B<O~^Hx>kImqlkILI
hHkzeX,yusa6cd(x6A#bxu]Nw1.z~ Doh*Upy^h jYw-7f3XzjpY:Fz9ud[(dQVY?As8(LQ/>Egzaz?O]&ExyaY^d[wCHN1~$D
F)@Y*1BrIX5>/^[7Cw<0WDuRX.b<|>s5J]gAF@tevzq3C]?<XZ|H+n6-6(M_d8qC<8zkbTwiM//%=w:1=b|Z~ym|^Qu2V @wF$:
i:lCN|[_m@#5$FG_qkNuHg%; $[NW6sD2zQ]?|b8gihkGT e7Pj& RWL7J^:6wi!dNjp[<O#q:1S<sO,3BL/notd0wr&][JBA|2!
NkI3,g(#8~9znQ/bAwH6Ra@Rblq[r2eKti~>xZ&6uAr e=%kQ[oYz*3.Gj&]t8x<cKaqd~$Ul&0eke+ftPw!R1F]xsDg7^HVz3~
D /H%bqq;4o&v[TCj9SIutI )chN8mT.:mtP|+i^wSQd59-[[;~jhc6[yuXuY3&jdXZ.Yw%AKt+5@ZQa*:DVsx)P4^HZW4?*C ^G
N%ks]g*:Z#SI!*-.EYeHeBip2S<2Y4|lCQ*&8I5F>QX?!jfvP%i=#[[RAN],<$An,Occ=rRCY?Yis]r&d%oXb>JG-*qgRqA1e0f+
b$/pRwsV~*(_ao .&D?95*/4(a585>B!)AT;|](M_=m5ek~3._W;=s,l~/(USOfqHFi7Lqn&@+l:~kQWHiA<Y1(vo[NqQ0<8J?2-
3H4NUbch!CZC6TQ=YfD0P(o;3)r>fN2yw#. O%f7h 8qtC~qDy++;$FQ0Byq&&?lV%9(-xKn)0N01+YeEVgB>TF*-P0!U%!J&z*y
i><TwESo1]JjS7*^i,Fnv(j>IMnEK&u_KoK);jC-7IL>*3b(LG1Sh?zHM$d(JV4kQ-t(*Bwd+X$*wsbbEEEI7WR|:7,FqEv]zC=
i-D8C(aj90ZNFId3QqR^.csnu;Lm_!%Q?Xr GI1qA1Ga$uc&N_u$WpU1Q(S@km(k9>:PD-I,3cew-FviCn&nGV$-@%,2@(kVd3Ey
h6jamZ$x5NFyqkcyrEpRUL62:7 r,ifwR#mIvibY;^f:qSy_wz^)B%-OX? >!xW5r)7AlU&vE2!KM$@Jpwb#.rwMcdnGi z%_Xry
Yh8UTVU;GVPJ%4<Wz%j~jK]xJi5 sEI0R&j;.|BN_eGsUue2S$lkhd3D>5RQ3Dok2M24#V@H2&D?$(/]V9X>eXd!_[>jks8<4W0N
i3f2EO3I-ip2Wuac*]JacM?Y3@f|Oyf%1AG#7gc91XMT?3c#Tyuku?gKh2!n__E<JW>.q~CI<)<Okf(#ON?=/BD<e|Zj B&knt
z-,j:BObNNcVbzWBMYDt-73/_dL GJXc| JHajMRiY.Ui>etqmpp;%%|zF9H;sCr8M<jdJk89=,+EbTvAn*)4JgN8KR3Fhp=L&%N
hR:ljW44]nt/#=p#xl-s RSr_pjIuCt27U,g 6yi|E.O[c.,GS022awPL_~$oY>CxE%,Tl/! fh)J7GCKT^6=c,T)K0ps*:18JNT
dA)ToTTj2WC&@ujYR1cWJQ6ZH?#1b__&,Ow%MrgRz@xTDG@b4X897M>+CZ4 Tx|AHZ89?5X3A8W6:p2(3 r,y(Z(ivG0?ESV<L!
Y[J8qXH+g>)JNEWsEK&@s_G#?QF2PF6PxPSow2qdtfhQn9r9ORngu|p,3 V8N9uMjQ0b1j)$_JOaHb4MWQ&Dsp]dWc@ro%O=9]wm
0K;c!...13Q|p.jqGm6upa>F]fb 4.jr#S?~,,b%rD8^#9Wke.:&qZ1:IR[Oq&:7DI3J.srj6AcSrl?m&!G4;.588G[QVq|V5ge
r$=up#u2ek4,xG^pSJ[w*@Zg)!@!(=/-YB1^64=NecxoS/OvVN,,.i~r@b2nSJ/%:_pD7hQdM$r]zb1?RDvY~I*mvgC|*a6SdlD
d;JV]b*VmXRL4~i,MH*DS35hC(o_[M=8~fcFO#8adt07zE?%VSecY[EkcMf;5F~jV/+KpW><NkGII0>vGxVJmAHlCsEO83&S>/0Q
qn+;WeW|*F@K^W%g$Ett 9UR_sV,GJvztK_vGO[WV2u@y#&IU<7], LjRyr4HhmW9e@9jNWfb;wg,WS^TgTumYz8g7BtiH7?^w ^
l<11aV5bD-oE$zHB<WR]?LYDe|/;(o/&]Mn$[)$;~uvq0<$]e9(iiZD0?GrUtVN<4*5CBWCI n$i<UUA;BTU2[epdmIkV2]w*=!=
4=t/v.:ifscI-fk=uYp4eUR!d[lXrjd~eho2_|0/zSjP^gcH%<|@T_A!>*^biwD9e.0p&oHnH;_qUeC6/7*)Qoh-I9uA5s4-&T^4
u.3VVlhiQ]OgGq2?85Ji3.a(y<y-Run)Iuc9[AA.BT$v%2K_[m@49!^-.O6o#nV0.w=MfIF5ja?vy2By4iFE$Rm[#M[-Ov+!c/5u
y%K[G=sUpXkBk0kQQ,&Ea)[~S*hS$6anRQF?f(2=C*1bKRD09cKpl@(g7_c^z+7= k8_5VAgsi?skx)GeoxVC!"

end JavaDeps.Text.CharacterName
