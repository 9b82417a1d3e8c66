import SmellLint.Listing
import SmellLint.Text.Packed

/-!
# Guides to smells

What a language model is told about each smell that it is to put into a function: what the smell is,
what it looks like, how it is defined, and why it matters.
-/

namespace SmellLint

/-- What is told about a smell. -/
structure SmellGuide where
  description : String
  definition : String
  rationale : String
  /-- Code with the smell, and what would be better. -/
  illustration : String

namespace SmellGuide

/-- The smells that there are guides to. -/
def names : List String :=
  Label.known.filter fun label => label != "Randomness Uncontrolled" && label != Label.clean

/-- The guides in the order of the smells, with tildes between their parts: first the description,
the definition and the rationale of each, then the illustrations.  A circumflex stands for the one
letter that is not ASCII. -/
def packedParts : Text.Packed := ⟨38723, "
A`Dcpt0Nvf8~I|~'>?V)^b4i:6l(kec!2^'gbx!vFBi.]|n406o;E^efvS'B$dx)RQmGU(4BaxW:NBzQ|bY,=)B(ff[cu]v<U?sH
|8X[7p8.D:k[=>`JM]ck99EMmdfRzd,'Y.r;9jnlm.H!^qoIF4+gYFJ.=X~<V=HHL]G0gT%X'FOc5_B[JF&msg&y%+,cS>JhC6e@
@2F||oz&Mc0Sp)$P,TWtu8Cz_N?7.skbbn;<42zd2f2pQncjjJ%C&q3)$dc%aca9%cdFl@Drww1='R$s(eguTq=ZGJ$OX|QTb[lz
2H3`3Nl0<G,R)E=Kd1Np>)4(rrW)u1Jr1x<>&wdCSZ3(|PiwV!7g2eA|(YlO[;*/,46~Fm=d+aTY~jr::'`Y,($0T/_f(!=LmS[C
)6'2^Xkm<5Q(*wib[[Jo.wpt>gz.,wz'|!Yg9I1,<s(&FU+d(*GP3ic&BDR,@&l*z.G+lGy*;d:]x2N(WOObOmj`eG4I.mp79&_N
J1+q8J<>[!OcS^ZkI;.$6yN[:A^YWE*M[~*1baDM*Y5me|q,,IZ0.kBB.HnZ/dLkDuxO6JWd~J0E(!2q,>ACkl&^:[Hi^a8:!g~.
thTSq)~IxHwzl>2RZLVs|G%[YeIA(T/W*MNP;4YyW<=[N2tHQ!Ux:FpWlFcpBz_[dwp*10Jt0.`o[VhFDr%W=&.l0N2[E&ynXEty
/Di|L>Wvs_iQD^@'*b~LS)^JhP`PJZ)N_r,SCJvwhT41Rqs6$UGeDHN&R(3Cg1&`4I%Arsxu/X0Dn$,)i~z]Nz6hw~A>[o<:Yj.J
$pQOXJ,c>5pC$K;`W/q.5!.g4k6yx+)'[iQx<o$^3P1BzvAi':MaTjVLs%rY!*K+fQet=ZFdrP^7`vD`baC>.HonmowAl+rDG/i%
VY>dM'_Btl|tnH[!*q=)pfm2^Q>/fKI^_GoN/sBh76GR,`@Z4MSOJ0>U:g8[fI:1>?>B.B1&46`z%_wP]eo95zV;cn~ga`*0FV(O
@`=j7OUmmz2VW$zAi<fITU~e/5kMj/b)hMOlEl4,y|DNmoZ%XF,~b;L`/^^L5FX6p'S5wmp5gSxTcq<iiWq@RsVnl`=T;R,MQ85S
,W[,OEk*hrSoZ!*0bXu@~=YcwQKz5lK[LXCPQj3?5jX[Y>_[P9oahJv>j(W@.s9+PM>+Wc`6uRr]jZ`RO$$uCz6|=Kt51i7?/BG7
M49&zjlXamGh]9l;:Svx<)ifo6p2z~d[ak(Bx.<wNln?,ClM5ARI.PZ=Jlpj,qq0o8rR<wuh$:fOQYE]hHBq82ZkBxx^jXgC9L[,
dbtO%xd^1PlU7Om'4ZRi@Yz[QK>6x<!j'%8N?N?mrWh<mRCRp/>A_tJ8FSLH3/V,0fvQ|$q:p;rc$o_hpHQ&H&4L`z*p%00UuCh8
W+DS)PJ$$~nxm(~mnc6(`Em73P_[<sF!~4m/=xp,CrOa>GL8PU?X/2bub0Or,RjkITAugEVvIJ5$Z!iS+o&T`yF$y^AoNjR:q%:*
V6ic7+fS?3EUYF0;4W2JS>/Ih,:mW~pt4'VSlg|@,o;y*wY&aSq%K~o[ZGCGC)/:z:%zMJ&kOzKDiGyEA6VIkr:hgX19:)z$JFiO
o7y~_'sdL+L/':rcLnAi1G4DHCU=M^j)pvtGF:q+/hsH@iv:JxK8@4l)Zewdinjr@Uup0KHhQ<+g=98YY/s?48*&9c$[H`;T&z$Y
XWud@,]@:5^DDAq@P'$<0_jsxZcNr?h,:f[Vk2N3>cp_sj!onQ=<NG~):ZTc|?Uzxn<s']NsPv>X/S15k*F?Hr?.I&aNR!oz<_OK
(ow@ai`1MG11oi8H`Zh=bB[KiD@Cc&Hr.8d_j?|ThL`~TXvmaPw4G_c$O1r$N7dp9jf^rYVX!WRGFQ;!&TZ4(mp;iNiz)KI;$:xp
qyb@HFXVQnx3vJ*85$;:<TW_?/b@<%R1q1[RyX+~R(Y4&*NAp@`2uB4HBex2O/Izw_?4l&]?.+ufGO~L|TzK.zrNYK/]D64A0u?W
wL6X6h+?1@7nZw0g9[E:;skV<>dLjO%n~q[RX!mbeRrW$5,K3pb+Fr7?J@0/7j!6^Tm8fSjzu@G'_M.h&SIDa^OjIYkh[M;H^k&i
$G*nxe|WqMHGcub9S(&lgyb,VLs:z<++<Th/Hio$uhyOD|F'Qcsu>dq1k*>j2KVojB^*0^LT;s,$iiV|&dH_XsX$^BU$&(7|P=^z
=bX=gz^*hH<ku!oO<,8W8C<30`etSv~AkCr,Y9SFoW=<`B0_%O^sTbMde`s~h0.62us3,YA.9s7FQnLQAbY5a!N%Z@J>@t=vg8$A
9v9f~QuwVvLoC?Q.ivXGu6*6fELx2;W5K7`wb2O,HMen~S>nz0qtc@;/G|&1LJVrenkF%N@9FOix.>9LJ$lI/,jG2j?4L98~=W,R
d/6eDKsQ0Io]_8$PVDM7:]iwoWS8o0_ntn/hYQWY5e,mT*K0%;w/K3k]qQcR[MFwE1RhZzDYB_wVyMuOxwtEu@KbgV48K(2b$d`t
s/fxT5)uMl;CFhGL++'%zc<V$DjteTVG^Jts.,NotQHAx/Iek+u=!PlG0&g2HBK8xF^_JiW0</nlhPsT?;Uc0c?vphs,7XPY+2)M
AJJ*v*4HcD20$wH>*JXN.M8Kc':zw?Lz3':cDo;AmTZKQV`.C+s8qk6bDPkXR1L7%fWA7473t`[2S);;pad6nI9DR(NzN6V'DG=2
t>Mp+qG<*sH?bjzw?b|QfG13nhN:|m2G6tQrw,2']3HJKP|&1oR^jH_~[^`!ag!h+Y5KO]vtI$:F8L)!5G0hMg+su|]l_JnrrC3D
a:9/b55Wqm,K=1@U^|DT!3q!?%drj_OZDseRuOkFuBS2J*FsD1|$]Vj>CRF8BK/%s^kUt<FJEZWqpnRV5LC2ow';^7onn6_W~[Hf
)sib$=f*CVo)3]rw0i45jvG=rsRwkXWo3>S_`0F!d4o2%3_FPd84K9Sb9t$EpfFpr5A=]<gxWuJqrvb1Yh[O'~;7?^KihrKM]WG;
kIgLD_PM?lm6(g,MjdB?oAv&cdCVP.k=By^>)yty)A%;PkXFx(XbO/&2Qz*ZR/^w,:<(j+NiH2QxoAm000.l]3+O795%S5Vk/Ve@
_dvHb9P>.C%0VlZpdV6Bc@Cg.b_)hIz|]r$:$bw6fcO97D,@dEMz/~?fUbS9*8Ejs<!Ftr=5bcC)d+?'SL2Gg!Kdl;sY1kNLFvYp
R>oMLeYmwK7y+)q/V!~8NwT+&zjN+;Slo)9;Nf+z4?tCaNO3O+ZmzlMK]kFUBwbwTDL|*Rqv'$Yt:U?Updbfb>bN6,11c3_nYmI&
VF%7@_A3_hHaK&rea=lo;=$(gIG^YurMp%7.<1g|V@dt~)$T54aipdb:?)Mg?`jWiGcur4j3/7*tPcNr$WVKj'>'mxv%$J!u_&Ju
Rj2!`s?^J%q`%mDSAzSbSqId)0ME7|I[o*]zJ*8SAZwfu.`$53%cQJ^$7VvFx_4+TKTf*u.bW_Vb7?|f=^3zflYlH[sA1pOHEW!l
@qMn8>7'wF1h9c260R?_siA!~m,aEakobb0g@<:|q9X+Y1C1xc5Nz&M4;q>K]i0N]@H5uzooYpT<^=k['Qc/<pKlH!3YNc0V~?1.
^IV=?vb)ZFxaydlw|Av.I0hs7N=)DyN4W@H:V0cb$.@83Fx:!nKMn%:E=bsP7w:uo]=+g^Qb)_^Cht85tt<6q9m'M)Wyk:awirwf
ZIFQ?&kGxOP978NY</_%W/]@Tqcn>|FCRnaw!^@xloiHX%/nw%;4V/j:h(@Gyw=MMScad&C]'4y6CO?tp=W5'@L61._rPh<zjMs[
v^AsMaIychKfJByH//Gkj5(K+@9(62xr+t/K1A=,PZgT,=O7xIG!hb[^PO%,d'n@`z~EJjpNu9C6rmI3zD5Gf2G6oSoo!W*y'_su
d!JYjz.y7hL[Y+2LY68j0AJSR*k5Gw'MKp7=XI'a]MGTMAN]=3iZ5L)D+d3jeSPShJbmF!'Z+2g+7D5U54&d62HD=zGspGF[9pTF
AKw>j57WR.B$]W@dgyfcM5S9HVliXB^uWNPRslv+Tl6:/h91J34DAb*Z5W~&*ubc]ipJ=K0qU6iTP|]GZf&*EtvoST:^b)_<ebm9
D[6pR2uUd]CX[=YpsPK8rjCqdx@hngXe*$*N5Nc'u@0,_*v<K8T'Lccz=)yf$~p*5mmp8XQ00MBe0LAG_j[JDpL~78``CcM~|HN3
dgesNgHG=lKBlnIY9(U1KE4d_2(e~Y8Z41Hw!(a:oR)r/Z%X;xSI=bD*QU6Bk()1'p7Fna`bo2eOx7=>bmVn.ACGS$O(p[OK,U.4
Q_NO?MDfaGdlDisF.qkoQ9=k2%St?mZ102L+^V_'8!HJj4aBKob`@Tr$sx<$Sm]Fyt`Qvx6gkfV!B9'5Mo$C)x*v2FPzWqY`%ApZ
Na+!FA;)pMrDgY8Y69`~E8V.3V0/78E)El+4E[lby'6WC/_a/l|%(XW~nURu|L?U>WHJn^|YOll>rFk.viLn>,Nz,|r~Q4[)[a(5
,U,/c^~j6qBvcU+^z@,S:Mr7S$2qp)4PH1M5+@x*;&w~&/pO6|kd*a8M*xxA%n4Vp)cr(!Y;l)N|)=lL_/tr1<sR(peIz3F_TIky
dCA)yneb%r8dB9ju:L54&OT&+4*/OOhC6>Rdk5'U(r]XC$t>UZz25TIKQ<0BfKDPhW!+'Do^?:V:AX9nlZO'?ll<UG9gjlN9|NC!
CKKHIVrgt)+2kKFm|b)B(IVOGrvTsho4]pu7qyZ3MO[mSco,5OgGo4FJUk:cTJWj9a>Su;evk,.<ElKA4@h=0sg`k$637psi;yc0
AP^AOvs]Jq]gU)c:QhY[ZU'5UPr3>%Z'q//Uq1ezBF9'61IErjc`a+wl!i>y*Z!]68j%~>Rjt5>lzFvwQpPl`kt?|KUCb:n;xBl@
1/Z%@GC?hhMW/K_bWN'c7bNA&9P[;+.+1,e@<G_J_QmkMj6:Andac|<XwyekxhW>PmY'pA9Mw'>rcp!gw1]'m:OqTJ4v@L51g1lQ
38/4~C,zcVmoZFWdFskAJoAxI2rVGQ*sb<cjZ6`$$xf9u:[MrQ7SRn48kBZvG14B!x,=VgkA*$yttZMWUEBi1B<jt+h@)$tb,+e,
|ahXAr8=f[9:I[S'd.Fbtoh^Oo~S!,X4%*[vbKoAD!E8bX*mn@H+V;z/[[(<$&N[~?UD/B0Ty$x!,e!~rpkM.Egm)enPV&1uG.?q
Xv8aso)pCgs='[URp?<E2K~^tDQaBJY+vL]iR<gl?l0z.&D?Utfr:&K%g43]gk%p4$s~sMYL2%1iK[xOdE;UMGY'Q|$OPpHmkbAM
C/+wYAlIj`F[I83IgeYuJ@lc>YS!GdV7z3wVf+xju<m[$A6RAT[iSlTJC^?d1Iu(+!a!+xLwx<cSrgO[xf8G:0VrzfV2El6oYYAu
S:u`Y6Z?M/l[l$G;+2ISX[p9bA,bPNv.?;t!nZK=lNYaX~5hC?+1/*&u/xf23CnZHOQ?VEG3sBY!w?n6(g5^:)<?CDY*OnFI/mzY
)=Sb,6_SJJblm/z3HPN]:,20L`_qqa%./xO`:XwrXGMdS0B)AYsv/Bb:(`jtTX)oVy_?c>]cU^r*5meF)V?^9XhE3~334)qmvk~S
.x6hzP44|W?)`~*6`/LN3,Z9_&o!Bb(%k>o(8.uo8Hs(o)a,u:UBOeLw!49&!=?P=|g:KI9Zhw_raDS,nQ15Jme2,f&uu0>ki1An
:99m(kh%s`ne0axfN74S:LZ(6f*:TwQ=|I(+dBzB*rpYCs~yGdEDtH$BHk'oa>yZ1k4yvr&kzBD2$tH1u>Vf&%jlqa^TQer@MFgJ
pG57gDH1rQT/=l2E0Fggh!2i^nJqx<s1mI3t3,!5wR_CMVeavR]JZJp4=<T7f8klK0hF!60VH5,3u>PdSk7jphi+OmDde0/_^+aP
Zzsv'[BlWCnn1g%v?x8U6^VwIFFDP5.u:KlHf1(wgf'@M^+x2Zb~2*yki0QjZL'qL!n:fCImR%E[]u/efwTt',pLj*TvAom,*p,x
F6c0K=CT):QFu|:E)r~Ec=FMh=Kgc4!O)gDHR5en*x)l$QX65vucfwt<P/n1g~iax[qId?XLi,7vJ%Vwyloj.4l8C5ofm+A=Rhh?
>aP'Ga7g.I4|,4d!zKjg%9=T@nmE0iayD4qFq+^F:F&^Q7?NaG_T!ND7kD?WiOKm0lP%2LZztX7DWsw5x=l]fg7VNMkT30S$BoL~
z7Rp4HIw%bIPANbG~zJ7D&1<t:!Xm3m762=g5nR|w6B~2<AQFq%yR`.dCw3.b9.y&*B%<^<'+(7I_jHP=(O/qPv2<T.(6=ua0811
Gb^p+e^cJipQ:X=RVKE?fQ0BN7]@r&N(H`0ysl2A@b82.!cp(aAF%(pd^Q,lhdrK6[AoxV.Qmkd1u^a!Z|*&vc?fk(cD@SgEWu*D
p;l7ei>z,j!|Q'`n|F*+:vTaKByj/<0GteBoxYjyq5HNc:<`52>Y_cR|Z>h(CS7Fa+@y^nOAc.g/Vj|ZBBgW?dxwHbA!I^4@=&hW
o|1>Vl.VkIU|I&,U@^m;Qk%P=J_WK54QI(Q>=QrFqjd,_OKtS5cbEmHPuy(peQM|f*7syn(>D(!+t,d5V:FW|mlA<@Ej$q;O=c@O
b/J4d[ImFFv8T|SU^n/M!st;De[T]VsTw;x=s:dbZX3_eXAjgB@/f[.Ir`fL?HMjT2.%t@1K/wJ>Po:XI`5FG4uKuqA!<k'N5NR~
|PvMpQ!4lmWhR&<o9'jJb.=Sa9K!0C1B5$9kB=d;54;_7l0%o&g|L!tEEjQY?h.An9c|SqTTtoL!L^Kt9p<G.;lm@]b/dF!NBmdL
v;78<<h4@2i!pxD*f8F5F.<UR%wtFx//'w`[1n:)%T%tGT]eCSubCMT=?(@_|?LLLYUR<kW+VuuSYd<Z7'b06<7~C><r/g^UP_px
CN+UI1XY8aq9*:,X'=$P++W6rDYWV%<s+]h*Q,BMcq+/[6CW@`lZO:xvSZ`m4_JDt~UQh^g%=<c^;9;oy&Vx=`!J:rqd,N?GHBLd
`w:Ic@7J_BOX[SLRxAgb@kYFC7Y.,fZ1b'M]I5/9;a5&/pi?CU<WcG1giNJ'aIR/VF7XTV<_tliilcY+j>jAKY<A7jU~pM0B@m3L
Ucz][D]bNTK21be/l~N'](>'6*O<chvDeB/7&z!aP>Z1vkE<D$]k2u]5cI1+.WYnGm.$@4biIUM,'Y~ATtT|aAgn*f7),*7;e_Z;
P4uiz6(ylS~*apc)]FTJHT^|n,WvjU603'Gmpdhej.+Ym(N3Es.6PuSR;EUshZ2Yo[F]DlQY[B.2AEf6qO*z.i46jy^?FWa1+U~K
y4&,.PCyQC~rzt4vl;Y(hrRysy<jeN;c3$Xdm6F'_Of5*@GD3Wr`5nJMY.Ww|pB;P:1EwAXzYjoZaf%ZKxy!P(V,_*k8fehVlWMO
aq!Ma~hwzC[VA`0k^FcgVl~Y~b;M?~`&n_z]''UA/.cB_twm8~yLkOpIELPj,!~Cj1GI96&bqakXp]:KzMdjN_>kofveqfC.6%up
n5n0p.aY:,[q'[*vCO~9tbv.zkZa54gIKl|HqgDi$v3@<D9E|~eF<,wUPlinpQGf6.|XB`LP;*a_`FSlS_%uh^;d*pjVPYq@r.p_
%!xG$T]Mmc+54~V*jP3RmFQrr]dQTT4xu66nlnIDm?r?G,mTLo2KV=)oQG~ykDwo/PL$c(6lC,ZSTVA:m$r;iL?'eN>'gQ<^mSz(
tJ&t]pxg9smO'XfTC>Vo7MfdeF>/$emHUbgvgnV@o:0.Tf>h6$lFPgCXr%.JAwzlUnQ*<R+$K!1CE&RXAZ1MB[O(gJSnI<o0UpIm
Me~Q'.Gr=R</hVLpK$oTuO_nLVF5etXW.?5|cyJ8?4<]V!R;wB7y/m)2|p|S,^Mcowso_=EuDnHdWD=gNC1+JPC^pSXt9GW(M!ZB
AQDVEBp5$m!j^nQLu~w/mk8NPWOSEDZxFw!y^:7IyY%lsjQXU9Zs`]<'Q_E7@cat)`(62(s4/,J_p[cAGtd@n7@[?tkoBQarlXnp
b,DMm7,v'iEQeatfECRj,?N5$UdPA6t7nH>hF=a8>Uj4F,|w1E;eI6s|!N9o;)@L(y)!,*4tTEP6$`OUWZJ*+gdoF$a5j^Y<BQE0
9yFOH%C.?^=u(6gMwDDRuMD&v2Gj17<4Jk$iU)H4w,kLGnIY8.qWz]es=))B*y0icX(/p&l*+z&H!n0EI6Rpm,`I%GBQMabBOCXA
=(T=(;y7ssy?'$/6C>2aZ78sVF>2o8YpC.~Dj89(^<6b`yDIjlBei*7+f9CN6ZZA(A]ZRLV3./`od|+Kfxx[?)Jqw<5nOTQbs)3_
q<~[aE`@*wjk8*qy,nrC0w>>v'w*P(w1+r&WI*ldNfp:FfN2c1IlrRdySq7X$d$x>_DUQp;_+Bu`D|'8f%K*P&%)J.IK@bdzRv).
w_*M_&Fn(aV!&%lbH_BUSxZnCO7~sT&HIGva5VV;:lP(:D]Jd]WD|x/y_zhGjUG'IT0Wz?5@9:|Gm65=8@(Gx|*RnD<,YP02g<wX
2R@i%=JQG.1RsbD5@SK~EOW|:=,CNc,x<Sfj3.)KhpT`o+RHl7z*Kx]J~>4oLkZK]C15tB4J2.FHHlJJFHd)e?I2w1B<i@._sP~`
U>0iLx32.:KV)>C=RVaQfdZgagcEwby?^6p2[^SG%8j80lH3[?9%;X`==winxf:reEE7Uq)+en?T]bpLrOmtfDOLHeRFp3IsGan!
oWk&ndNi[F7V)=Bj2H64IrbYgumK@.C+?J$2dy*grphh5q_O=3BOLCp7L8W_2jbX7W$yY/7S^F%i+J9Q,Z%P/&7zjf)o]Gin:b%b
,<z9p<Ev@IwONfT5WcL4X=Eb*sO|g]P*vQrS2/>~Bt@GhUuwK0G1_s_0$)KP&tlkFU^ve'4|X9+Lc11.L]hRE`%I1TdB(`l:((FL
HD@/r4YNGLRgAV3KFV/xCwhvMA^Hlry$>Du:XWyDbZW'H~q+wtaGuC)o(ggokf^,zfq%L3+|]!/3[;sWoFnTS/'w(5x5bqg!b+gJ
GW|amF!HTAn>ajYFCTA:HU?0E5uil&9]HTh9._CQwL$uZHrKA>v'KTo)rtKv%GWem^:Pn^Rv]K&C`GQ[OT%4j*x4(c~Tcjgp`kEN
s>Bb2&tB)/@D(D:EG2GR8>U/.=RNoI3XX]kZg>4&l%BTibB`VJzZVedBL,.$iVk(Ejnsgk]NQ`ioZxU3mj)Wl,Q/p$(p&UPUXE%T
8lNJDH:(RCs.~czkf4PsFUw?$CIS^h<$fj/UVZjYE&w9a)jJH$FE'~L78O=C:^t3:HBgkeJ(Xs^H'WHyBOk+>6&jHvT1Qk?_A3vH
|uWI8,I2L5<n%2fE@y~s&1gG/RRQ_67TQ5(g|>^hQ*bp%ar|ld)lQ~+DMZD=4xDlEz$0()7E~8rrEeJT/q@L2Ye5h.7T5KB:/:Mr
UJHwI3U:Bd7p=ndFsGx_@<F1ISXw:LTU|xoobwhtr1tUZ9DO2NZQvxy)Au(E$Z;Xv37Y)j5u*(TI_I)zIVzWN(CUy*W8(4;k_vyC
hefc`<mV+`.tlDjADt9+Ir?;?wUCRSDLc&<LP[`4;u<yC0yv?Hde0nVCD@|/;&I&[Km?s0n?=9N^[&<o&+A1li`ZQC^08R!a)T]<
7gKq0.:)QAh]0vnnvD7q3MrG>!w.lI`s!fR^$fkYMU%1tHPaEoiyBZEQ3zhh)5yl!24HFuRr%Y;k0JlN2qw|q=~|k4]OT|OW?1h+
4x7a&lOY|MLc[T='CzKW_XaW*;X+~9U*uh?`m)SMoL3?yMkZcSLbT=J7,769X*zr~4pw))v]UJ4bOXiYcX_e.tZ@o25qC$w(>VVx
q6c(6W*X|W]w5fl$YDd=|hIT=$UvQ$8w4c,)ut^rMW[IOETODu*PHxJIKLVlqJ(Kqh[bqT_?9_+%Sg=%QisOX6GnJ|4v/vJ'J(y$
/kEhggqH16)a>lF2hHCRyfDaVoxDoFX3Z|fOCXeUbfvxej@]o+@~AZo7Yh>dEYMax]>1.$7<0zZg,P>=3[%v:Gzc,iFCgC@,0Q1?
YZEa0HT742Wm59v(e>kR]v_:M)u5Z;.1KFZ!31W?"⟩

def parts : Thunk (List String) := .mk fun _ =>
  Text.splitOn '~' (packedParts.text.map fun c => if c == '^' then 'ù' else c)

/-- What stands in front of the lines of an illustration. -/
def margin : String := "                    "

/-- The lines of an illustration with the margin; empty lines have none, and the last line has
nothing else. -/
def illustrated (lines : List String) : String :=
  String.join (lines.map fun t => (if t.isEmpty then t else margin ++ t) ++ "\n") ++ margin

def find? (smell : String) : Option SmellGuide :=
  (names.idxOf? smell).map fun i =>
    let part (k : Nat) : String := parts.get.getD k ""
    ⟨part (3 * i), part (3 * i + 1), part (3 * i + 2),
      illustrated (Text.splitOn '\n' (part (3 * names.length + i)))⟩

end SmellGuide
end SmellLint
