import SmellLint.Text.Packed

/-!
# Names of characters

The names of characters by the Unicode standard (version 14), those apart that follow a rule.
-/

namespace SmellLint.Text

/-- The names, as entries that `NameReader` reads, separated by semicolons.  After the names of all
characters come other ones: names of control characters, abbreviations, and corrected names. -/
def nameTable : Packed := ⟨281802, "
R/*?$|eUOTWoX,kO`Z+Qk_gG)8dbL,<Wu.C_P4$WL%D|:9OTfWP1oXY$QNmAQ1N<MX?/C@xt*fu);[nc'dVU='MRM9WKw|EtsnpH
($4ttT_M*ewyY!d@FQeOPJp]A_Sy'NfH>$mJHpd|LhY&b$DJX.N8@=?;Rf4`YD@rOJRJ*kgclRw+5Rcjli<S9luTb.z3F3D0T<]U
g?2ebQBgs%u5~`_4_gmhLRb.BLWVlJeS&g]|1S%2@hQ,z;Uexu^MHPWGsOr@QoDfpj.C7PiWNVlpk^gAPJai*;!INXHKTWtK|vV_
)3UhBcnq8Zh$r$@yf('y>kcfFJ4uLt]1sUtP]Y3KeN1TuvL?z3nXhpn@RgDnDS?Q]])oDtmg*J?Voq2s*90$+UaR@_x0p=3e,/8U
@1jPHkt&u2<5X0>yq)kLedXu*$1Gi7GC.:%Z0oM$KwK]DAVvNlJS@CHQHe4RQ.fQE$v+@`V|9MZ)d*7AvPTxCX`=dtWR48xN(:HN
ecr4b9rSR$!M)gHBVofH$='23~RM/FS^5MOv_JL3&>BhypqaHIC1k/QrrwGGu]XV5f3e>WL6@P|K<V3KaeojIUt9bmyT>?0j_k0W
I^aQ^qR)Ve@)%?jpq!<yPxC!$0b(;M>rr!7LAyzg!tntY<]Pj!3QZ%wzTUA+?gK*~~OD72)>d,!p;(8HUwzvXcEZAWJR]8IUXSXa
t3]YB890e,Y7LVZ'AwbJStc,MZ$FQ)%7xZ^YTWKS1rxmT31Ic*Rxe>.F;pTQ7=t1QxiUd3?:>wF_B/W8_b[Gb9]w~vM9`)$3YMi+
:K1$t~UA$g~r>C*3V'7JWgp:UPUBKG)<X~GhUSj6`&6m?R6xD(hBa&Tp=q^&F`F~>Z)Xn)DWk>H>5fa<%sD3F:vP7yBe6~vVj[XF
|GRxNO5Ae)9?1.NgWEMu+1j(_Q@JuhD4Bcau2jw_RszJLc![qi=~Oa9bCk/Bs*P5jg=y>:^OG>8JUd*`^F+75JpJl'dtg~qGuo0Z
K=e6.<uo>PPu'+n^VuX~SI%V8SdAHqu6|l59<x!;E&XWfJ_7/HR<(Jz[.Vi=/`;(*!(nzt[RLL8O!;ix8smtlU!6Pbu*?2DQ2'j)
Jklg.ZLZg>nB+Ohv?KmN~lr.t*|FWSjtk**,[lf?df|0uA5VS,BE1ja6!;@dMr=D[].d9vq=7An1q,qM$DkfNI'e<0)1b[[BO2[%
4L?~n>YtIhoWy=hN<a`j1Bs4?:v;_k&XTMTV.*b6k(E]7&q$?2aNLz@h@f<A/Olk)~WIxl.h^LoJ;s;6gdz>ysaFT(%*gwh@NnX~
qx@i[1)8^wy&Rt`CMr^_A?G9$d`v&CHc*G|WkS%BYxRo_(J7he![Yny/yxsiE&z=R/[Bn~f<,(,S_ouP>hNncy8ZB&o+.1<KzGGx
v)1^HB`9^>^@Fcan~5jCd&=DJlQj>><DLSoTZE!axL6=.?6CeaN;p2OM5.CGs>H.vxYhy$%;[bh@8'0Bbql`3JiTCW>Tv$.vS_G.
@LX]_:Esf`>[Ej/uD:zZTM`lVBN|%v<dvpjDq|TEcP1@oUcHZ'r>v1L3sPlz7=S?]=!_Fus&Zs*Kxhyu8keMtz]0D>T2Rxr|*`XI
v=f9E/J@'ouObhy%lwFu<dBC_lKIOtqTz@i,Q=pA9G!8r|Q~(Ay+C4F%|FoMqTg=R7vE9S3,Ns/R5s9&Ul8P!MgJ;*l^JFy(8Gri
4k]~X%OLpsd=%l<0D~21>)Xs>kbY1IUj=UT|S(xOOXOffp1/NZ.y;mPOe0S>$P`/2t.*G,:TFcY,ohMn_suSRd/KD=|(~4x4Djil
Sx4,MuItX_~`4KJ$6M8=OFTFuTqgYAX;_@cr6j~qWq3ZABw%:..*?=7W7[o6fV[aAJ`(<(;2EcqXpwtvk9w;^c/Lp6fCA_CQC:W0
4XEAN,fv9'^L.IJY!?Ex*/YyatPALRDG,=kr>%A<&huHUu|JV6@UYSs9Uk](8^A,0Pi4(a%<~56TRSV~kNgR?+Z3:=Cs'_J_,B./
L0wrPIfLS2<K)z(0tsMnQ6E%&<V3um/sWEY[F>cPc$L%G]+I1;2;KHlqf;]|ghoLBqV7OX8Uh:B=Q.H6s>>@B)<,BUmnum/>1Xu.
[oG(:o.nRA7=1L4=+&].2QLh:V_kEy5FJSjO@ys8:1Dg'^qby@=42fIoNc*d>Nc/E~U_SRmxC.R+nq3m(hIV.q_JQ`M?438sUPqk
dTG~~S4J%rK.^]Lk)@?TC<)>Mvuhg/TA/SR9A@2NM@V4.KZax2K>sV$x)xzi6)*g%;5MQhuimPG*/pu`v0sUV^dKWFfpjokYOH%2
r`hj.'^M%@N[Yi^a|JwEYg)QK[&dx]Ik+g[n!dp;as*E2~7skdG]t:bxyZo5;]td7Y(l>4|@o,@dzKKmZ3lzYrYvl@)|E=^hE`o9
fxRV.lj`MUK_6i/]Ry:d;kyIzW%XB`SJCe*~Uf$p=AWNIg..waL5Jc1+ch6XY4niAMw9'VzCGMt,JGv]|28:`i$gE5i2?;FH0:j%
);p:yUldfknWwsS]fXLwC^_,y&/u@DYxV=|7Ii!^ZlZU99iFwW4i3c6(B&S(a1z&~M.^wAs.'x!Sk!+a&|^rew78'g~&*[KHRR4)
'dFna[,bRN@n5odY3O!+vq`<[l||b%_OG0%yt.R,MJi@_vh2=7uq$!Pn.$0u<>VO5ZkZjid3IJ+e?%JgpdNPfZB_|(CGqiB=LX3h
.Mi[ac3wvy6u7]N7QS>J[5P&8D6mNV/S|I)a||v4pHvU.;)8PndWSIb[0FS7.Z^.K+4a_![w/Dv@VHMkL4j1ET1PL@yUu/d&rH>(
4e|Pp?u4SQ((oLVvuKWECz2L3A7wXRN%vswd8;4SWrxZ&mXl|[On@;E_H|@%zOg>IPbi:P(nv0[X8J1Q]V+v>gM2XC2Cf=Tb8C_[
G*Q2qC`o*2XoHfHg@n$e;iUoRS@;.@%B`1Czs$)l,O4O;5z7Bz<wvC!XF)TqmT@SX=pNb*?&H`>eTo.6ENCM/%aD=BtWEY~w%j)|
]cwN!kFQQqbf6Oy*f:Civ[WmsmYXBGU&cMrs:2Rg/|tihN.,_?_r,t*6<1R9k,m0UlsH4CR`wZg+!q,>PMe/NX4?NTgYzVK7tV=<
[g;``<*Owe~[SyT_i%?D[1r$M'fSG;wH3KC*7@z%95t+)BA@ot]:LC:i_c59x/.L,1]kJ@p0*!c*x~kY<oF<L7Q'xN*@UJ?%Vk;=
wyANB2OQF<0'8|WXrR)aop;,Sf$Iw/!yX?Jy1fQi0PI9ZyI?.:jO8?mo'fBdIgo.9Ga|TO;(/qwMuKxNY6Bv.K8HMtGjw/oD@lCy
(~os]t5T:^Wx%WrT7jtUvxE?KJ;F_HBxqn<kN5gv%sYX$he)W~:$VRa:gEh_A@2AOE]fw%'.+NSyJTu|zQ:p[7Gv7X~u>OrKq>6h
PyfOG`e,9YNE)J1Y=.HRqDTYd)E>E0f+jG>_z/&ZzG4Jr^cPZpVj$^naxa%VFv~MuX%::5HGs(bmzw|~]n@*4m&IbxMeE&oa>rY0
<_=iM@PIxezD5r(Wl8aCDqUoOo^57BU!s%il1X?i=;3SjoMF/jk,Hyz3vsc_'v=l$,uSUO&W)dn&@LAWy<[~=>!~u;%B%t[XQg`c
Ie$,HAbem4]<>4p]a0*GJ]^b6s@H?w@E:&qu1g!g`;T2GKC[Vvqc5&kak~e]NpK=eR:1C(uQFSBYff]dAy]u$X3lp1tQtuPtM4~+
SbcU@'5|X03w)+_4j$ctBD1q8rPO~;^Tt5rYO][1x%*jExs=uz~x0m1J/_qsUr_3m5kIq'g>T)pRM&KPs_M91j'.u7!SA?Qt::._
8=ej6e3$!)t:Q[i=1,)z2bGO+%Jq@?E8WHT(jSITt,eeQCAzKw12CtWl]|br3s38vCLZId!PGWw[D@=j^FWysf*fRypELgdkSrR3
GNFB@`Nf4M4iZOIjngo2e6KQ>e8A8%KBW.6pvIw0sRfuI$1L%scdn']%WJy06o,N7zMzIw(R2j6]N=`bH=CB6y;~7~~L+=F(OR3l
RphPUZtKc89o_+5='ROu%U^:6E*;mp1|r'3ZMMp248Ffh^&C7aATQ4WR_z&y>!Itn?h;1CiCztf<b^o&IrmrIjAhgL;msj1^<iOF
lP+XM$h+L>5j<AZIih8kk'*5j1u`hr8ft:QO=xcTsl55_*Jryj5nH!l_L:mEgL3l%]1I'w13NzK)e@x]R24UYKVOn1&lhyr,GL3K
ZvrJ63epc>fH|bOyW~Hh]wzSI;)W;<r^NF]RER`g/.rCzk.WYQf=6wzn`QvBdi:Ds5NrN4Vwkd$(p`13Cs$4%1/Lp:Su!,2rJAR^
5uh(20UK'tvaWTj+v0w.Fh'oFkuzigPaiGiH6w)SEM=t+mS57L94]M=haxAw$Oxq@sw$5(!WwBXCP_Lvx4F%Ij7VjlAs'Pbtb*;P
:*&CR[.xoC7f'OL]az,V6AN9wEzb1bca>dSX^<Avzuj(+BJ1dFJ]t16BD(Uf52>U)4tYHe!*C~;Eg~]%fqpxX?%TitzkF+T34Z;3
VZ:7q^'8Xp//i_pldd_(BmJ*62I6lp(<g/OPs9t=0[U.6rctos@jwDOP's;7)YGPt~(j>))@rHeBqf?HYYqi3k]SV]IR/YD5;B`~
3r9tf?$<`3<~Px;+o8/jNt9!jt>vujGuWHDS[Xr[yde(*`fo7pBse)mFsG@~jRzRSzb2FI,qK@el*(F=Z:mJdy5/B;.@bX,0fK'(
ez1NE'9H|uY|xt?)pw1B7u!'M|IRnF&]s'1G,];Bj8[EvYxt)*@LbzIIz/Zz`?.86rpw[~1oql$/9%QJMx$^CVc>*fJ;$g'rsO6v
GiA7RFo8*yRW4g,~:zf+QZjcL_L^P+]&8gKY^KyhDe08TxX4K7aJp+OF/9Hb=C@zu~Fs5F!lqw4.[|/QT2cFvurK|htXnU&jqGVC
qVF'$eX=(*ZcEpE['(~g/2q[_rAF.tTlIJDU&G]R*J4ER3G];CKL4mU0vvP&)jdE:aV0E$bk:jHKPIgaZ=AVGJnVPlJKi!6IlcP@
b(8VMqn$|OqdF1Kyjq)x<ovJ'0_0V_@$sf[~0%8!4@b*d[7)`&%DddIRB'$L8&?X]3ZAhBOht~I`@*trMQc:FQ<E4]U_hm??6>Ih
WlD$VVOtn,_Qg5uqVGR^d$xKJ]bj0z8SQW>SljKEIT@c/vp0+:9y1ZhY0Ey&eFL*;(7ZOXn1ySNhm/@NoImzr*1Xm*HVsU;A7iuC
fw.Cya*9Yx3f.X@SG4*B>ItJh5rahZ=>upff?;,]`q.5:cBsal<QvMwyKkc!yIt?K]~e?HK|soPlkKc'SKXF$LO6XWcc!Afnl>&V
6qVX.hO56[&O~U]kXVS8OT;?+we4,r9_h%up_`iF,~Tn=wa(:5nu|jtt1zbv:7*rI'6jGMGb`!9fmuTGAFaR8xmI=`xF5(kkQLXN
sC+WdCL*zk3qawp*HSnmqxMKAaAY6tVP%3hg8G=$1Z|^?*745z2OmdaqK>hhE@*Jjr`6xJS+G`GM,~[uoO>YK/,ty1p<p5*,U3h(
8,rhGp!8`;iSPn$bz3w%Zf2uULw+ZixRItT<o5un9V:ifZW'6.M]pN)OyFI?^Hj71.Rp@Fk8%+TFi0)cK|ZZ;`P/]~e.S&e'3X?g
M[9X>0~WP5+ZItVlsD*?.Dkmyt^F:1^G8~PhlHimc=t*kW1r9%C2kMCrhM3b~H+`ze4VN)CuG&DiLutYKEL^N46S$<D%qU<:>%<q
m6HAi6S6~,Ch=!dKQ%IqnwiSyz+I:[7/lUU!(]d?V%pGODRZYf7rsnkfXP<SW[g=e?K<S=`uD(@5&YT;b5)NeXQL4A8zeRS2vtXL
16^QTeVWiH,u0cB[mR^)Pz!lz=fD9%,z9z_@e3dd^3hU<'ON6B?j7d@xoalg1ErfMGS_M<Zh07J)e&nwWg)u~trVTaNA0?t5a0/D
HX~_WH1SNis=DH];~PMGW1$NRZ5T*pAcRjRJkemM]Tu:3:D_G7KZ=kK,j,DLxu@|>rbm~j[p/btYjIv52YxzGh_cDQkHu=4tJDWD
;6/g)4Doyz9N/$9QJ.I:`Td)]fluvKssi%]Di>;3T8z8N.ElBB&Bm[+j|?eLDF[Jt?iCh5`@|l7l)`tJswbX29/%)Yu5v,;yhn]|
I2KML/%egC!ng$Z|XhXA5mM=vM5=P+A.VUn3|B^PoH/x_?hO[[uQ1=<3|v/vo+s/lmgT2aHfpki<my8Lz~.W/OH5igYBS;rg7*]/
Cm=e4&)%X2pW`b!l?A@[O.s4Ue&'&&6.zCJ]A?`=54C~da/CGsRhHS*5*JDW>wvJiU]EzfXM/duY,w(3|%sK2hw+L~%$[u*)Rj(k
SKf/0K|+r(nC;NbbEH`6=Y.r%(6M>7AyH=]'A.yTFLvxZmSRABccnieP>+!i5|9!Mc[W&GFE,/~u.5;Dd=qd`r(b8ZC(,C06TOBc
Q$.NO5vit:_97UoDvM^LZVu8&D0JliY+^'w2nT@ykVqt`kL|k~ttRaeUZ`v!/qM'FaPEFMT>XM*o:PX3wv|,g8y;nH;:N_beIva;
ru`<3IN&74Xvz[iLB?8eHWD>.O$,ZQ!7A`.rf,M6=7hHQtLxl)vaXkN<aBd%&[eoab<Xy4Wm?XUQwoT(EKh:,F%~b]okH:1P[@g&
PL!%i('II.i/%C3`6flsRF[$2_EcB'[8M3_8)yn[0;Cz[M[]R/JH@'TeP8!@K112vv(T)&zs:)R9pla3L(@o3paD+o3W:bQC+7Rj
TZEyDYUTMVP</CFD7eGzudCqk6;vp~Ujg8;hu7>r2/GGj]0a&@M!bH)hOOo?CKTF?78_SkHnHZh8wvN.AiNpRYXc!H+mRBRn!oOc
Z_M/+b+Jur9IJcs$XA~lX>j~*EJ&6gZ!?`@UWCl)x;qbAlHJnqsK*qyz&x0ED6F0n)P[|Yd;u(Q:xNRgE*umP=i>Q=zDf%fjdO*0
(HyV|s,',cT^`<&G$5(pUfN)q`@1<KxR&.g[rLL9iT3W7P3O'zq[M$o2K2cye8a^5nad>PqrWj,cYPU4]Qz6,]yOQl%X0SPm%xZ.
kW[LB,^Zbe4@oy*m3UU=EI5%xIUsg1pX@Fn~BB+x:|TP84?&BvzwRqdQyKf^JIUdWvcf`3.j43,TRn|W*rA?p[BI]X!i>To*``|D
))xus,Z[Kjl[*ONPQOd)ns.JJg~Y9A:BBL;2LH7WEn_hi1+s?f2(duP6pw.HvK0UOl4LJA3SL5?Mu9~]^Y:%ZEtB5WDWn~T,mxnS
k5X!Vw_kWGa*9/Ho)5Z6Y`XJP7_mE+mUpatdL%'X`<(0].en_hJvTA=hi:U8Ay?lSRB<K98LSj0$+Bsw3GFd.4hui4goyH5Nc(_K
20INn21&`C@(Me:|YO9qqIllY=oh4&F4IKd6O_zs/N^bO+&5VI?cdW7tmE?yw~unzoacggx9mSxrxl]L+M@S_31m_YTXyWRgtJp=
6t5ly54RNiyK^;g/WO'v)$ACxt,xa,_>8'1/)ooV06*Rf.JqCQ&bZgZDKK7q0BjYa*zHf@pl=Q'UJ0Uh?$@MbTOjc(R^/zjpiTW:
A;L'0e8!g`u!nX`]5%sD*o`.@C[R,OM~b'9W4S2cu;:&CM.C!d8][4we&e*Qjo+Oc?Zjjx5s$jZL6%A5,Gc'j=~BB~(k$]TW01Bb
Hc`7@&<hEvaSFnquRpNIRWt4CC'tgD|,JIdGrT($fN`0+Y*Rwc=LSJDhh~h!KU?*RFU8=**`^_~`WW6X(56_$400ma7`_dKiRBBf
9>cA>00:DKGI[)efr'*FVj!n=v0(wK79iORN)d+b^$RJ%=pGl7|OGA*(veqd>jTL1jpF|v$WNeu5Wccx[wBQM8'jo4Qdz]5|K`z9
)Vge3OS!OwmHqR2Jt/c~G|$ujV|th7c7&da4w8aV(92Ont2)Za!fn~|Pc+KO]Ie^s.Gt$@QDj4A4D!`RZHH]$8k3PZM6Vs~*&fE9
.hsGb~5?/$b3;3sjfhFXOkD6EBO,)`WiP*?HoHyh1cU%O)`J*B.]ELJe[mqCBCC]xQw.X/>mPO|C)c^tXb?Hp~4Y9eAbzv:LHd%Z
.tU9Q23sa`!!T8M|s<%f8<3xXMCOn99=fhQA2pJQ.0,Ok~*wk&[gtZ9=v^|&*N7b;wT[^vr5Lm;8BHsbJhwi4k1sx)XY/kd@nH]6
6Ck`;$W'ld?JC[cLQu>1i7:sa%xzJ;f%4Diz8|o:^t_S5xZSfMof5:CN/!S(V3vz7=MJVTmxADDJ>2ND:S;>tRf^?9abm8qEYN<J
&ueF>z)08*7bzb&hK;d&_$Hr6KRM(~vu]w,NO49])b]sKBg9');w9pC7e^UmQ[)fIMl*l>LGh>T6WU@N+f~t?_f$)]:DQ$J<P'2+
3j%nFOFE!+_f</.S]SDDm[Z^VmVMYls(,)fqy$d=.)tH*WJNdK58ZlbW1a?G4AxmZIL6GoQA`K*+(xpw$L=DRxB/E7YXgOz7~a+k
L.@Qmng~+2|ZV*bJ`8:w*amP^)r&t]9?zneqbI;VZ.BMKQS;xRom=G*WIDGDR(etCoIVGAk7.m&(+y&tMK`i_^X4OlquBUVrI_=:
QM'_tQkzT8<bH!M+.M@u:v5B=DlkuLn,h%<_~BiA^U7FGvCM`W|1ksLN6bif`9MY9;f9df4g&lkn2~pqOr,,vjQk58t+(7V9pH?B
rls/9W4~hS!IY]4TF,NW&.%J>>wzvP$3K*dPJ7zr'U;/iEGFEZHKIFARq<ib~~,+]/QBhq^xZ=1[Yx>1D]`3_2Df5d`'5~fJJDbQ
+7@O*[9X%6QvqkcN+sX,RXGYN0wz,vq6tHc&52>ThWFHnlW]A@3b3Dc6w6j6|7)DZ'25dsjOZvyf$2s[6g:3WKBes>_QfWHj0N&$
v3Lu175:2o>.AJ^2`f]j03yiU?cil6D~$Zc</fcO~!JnvG+:=BR!Ub9eZfS*s:8]w4E:<R6]l09L[72rd8n+BVo>l?+<3LKL8PJ:
E;5()<5B?:%@=.@)t|^fK'ch3`Eyn@PhsVxNPohoCpDh<!=|~/uxpmCL4qJD*G3glUVH=N+f3!fBA'PHSS:;>cA4a~.MlpE(m0D)
$)w*YVPcPa@sY!.Jd142'0Zi_]%Xauxv1C9vRdl89Pj1EkDH]uFXC?~R8=[4q=A/aFyk?Ky%we:nG85m)gJQ/z^_%CfTc:2QR6Uq
+ybuaTAiRqA4uTI,S]+=d%bY4ge95Xj'x:;H^!kfUNdU<fQoIhpwKzyt)CT[|aFOanWpgyZf%wZ398Kom=BiQXQZn/hxH6/;nFFf
LzFB2;aU30]BHy$zDaO.NUbQ,oqp?yaMk7W`^rgK93T8SZtH^=OL?[J?qk?PEtGJacLQ;Ld0'dnu5.?`B/V5IO&2%mN_+7G0T0R7
<O+qvR9Jiay9RwwhjlkiaHQ5ax]+<o)?3w~G7i*nqBqi8E=ymy^g6S&vdzb]k=nAp'DMA$@6)TOQ<=L`x;:B(yTbWwSYQ@]'d8Lg
rT>DGJJX)A[)ES]GQ3rrtXhG6&GEpuRL3N?[Ssl_sGcj0J7eH`AN%/[],5lUkuK^GU[[T;x$&M%j6oR5<skhp2c|,s?~+xX(bG'C
]<VS4nsqTk_<?3MvUIQ+4T|7X]O%z^S7l$u]*@*HPbOJE8,QS6z2%AYb7|,)Sng$+3]0r^gZ[qX6tl)Vab)Y;BEH/[Sp_D%zROz)
2`oPRYYYV<PEh9^nrfvb=Uj.v,.*O'&R;CEZb5)2;C,X'X3q/[s~y=^A3wQU`_Gf3IUGvUQ;+>0WkSN+aacc;b=gy^H@mi=vbKg;
5Y,@6~]fibb@)A@Z(yuXf_uDY_Lxb1(_cl<b4WhAyTu_oLD]_yP?[e|@lf_xXnc7]lyLp]&h6dP(xRwmb!;L<4ZSf;wT8MbQ:[33
D<Q9uw5g>:|''zBhLCN:dwZ4s=M%=)k>Cm*XoTd6r,UUh63YHc.g9lmhiIrSj7k^yP9~%Lyd27+qTg_gCTT.oPYhtjef~0~Dd7t)
s~JhPtjAE/Q&U!3IwAu~E8?ER_VTx?&R;2CJOc3<':g8~q(fziA[+v6))2sH^Z[g&>O1BP*fjR!J~$5Siu|00$B8|O@b5slrAn[j
.Ni769PiM&x@w7ZX>xVIlVrL%d!m1M!DAT1di~sIR'.0FeSi)f2Tb%bN[oIs,LK)6eAM!ywQ$Jc.RAcQmz.E7qPN:RW*487:*?.p
f|,89vg?[,T.z;pT,C7B.]y_>HoA|rKU`IZNl8Y[r*f578Z:'e0pxxiy0Q7Vrm~ELRNd7>V&J%7j>3$VVn<7a>8m%h>xF>hdNp'2
$_Gq&kDlH1yg4YY/Iej^r./_K?3(aq'QJt6nRyb_jsDCh1I^xxL@+npZlv+.BX$^?5tp||_'eh4Iv^(0Kjnz=Iia+2^42V+k`,:C
<$<4wR2dbR]4kjuB[_@!5Q~NVGqU5?,S(Cb<,/W:X<P7ECkPOC4_MGBoNY$dI>EgOi(>[,y;0?+z)$PLAE_6|N9k8FU!D0DkrPhQ
PHj9?)aHI+L5f(Yq$*w8wWUMt(FPF4!5y_,b7NY7zX^Iul=;_SJ($q[2d0D'7d'rw;lapiQ=>t]QGII4Y+|F]7?K?;Hr+&_.+Ta!
goo0*&U|Zd.UsU@yP4Xz@8e1)Z,M$o<.QOF+X%t<x@>^i7~nBaIX)_FtZk]%JF/DzfeAbYw||F*=GCEZ)!6Zb@)A;wN83:k'IZk]
>B18GM)8J]&uP?pu@^19yjFnWgIpdVkW';wJ,$`Dzu4:s28?jg16dahE(EFNeRyu0mf?2O6_2:hSC@Wl[2`wl'VPT03;49XZ:nuP
`Wjc9)UhD5m3LnCtr|<u_v8=w.R<s';v>%Fngw8nQe*+GAE1V(6Jl.ZtwBjU?XYjE9>igbm27gOpD6%2,FRviYB.:3~~(CyAv;.1
t/[lsxsV%1nMTIKPmS5(rtbHfgsFmz+Gc7'1&ne/z)^g8?NE/1K[GF(gG@|tgOY$r;pq1=G5wN:k:l%N+`+']WT:b92@Wucdw]Dz
=5IQS]@Y)6KVJrp)`szRF_4A?^d%$fY<zh<vMCT;umvLDS&vnL`tH(YLiP!T]TMR$jNv4gSb$7)OqFa5m4p(jrNqX*VTc7+.jE&T
Ogh'AJ4BU~cvko;sU.6MH]K&Z:qxz'42**)LK/Y_4~dZJ,pGyHNJ6=~bY8|RU6Qvge;?gn6X>%Vd@k1l'diI/|6e6e+=`XX1DJ=f
Wf+uAdfo=0dB2MP@6k.Oh%>2IIW+,x1wCQ_R|o;@8uYVaL:=IU^0`IAr!;3GC&nXV!M_W3a`Sr?@7|?@9_(Vk|.[*BRK&DA*'S:W
HV!Xof<w'=PTL9eJ@Ds*jp*Cbv,(&$ltfsLpDnC^?q&''jxlFe5')jLkjWrxk=&zX.Y'W4:P7&Wj/D9w~Q%BPT3ZXku7;*5F8`v1
5iSF%4qTpfz@kjSl>=JvwHVDl2O0ckP5~y!m9SIz@mtFG|SH4/dj(5v7P<*dr[z,9xR:L+o`,A);Y/OHje]JkOF!/tJir50~@&HW
&Lhz@3Gs[mzp%ad/Y^l2_qA~I871&oZqC/I+LtJe%Lq+w|xviV/yXU`E$nMa5Qhq/(V'DA`DgA]ZQU7U2NngqaDv%j54J`zOPE^U
3f2>Y:5b5v1;2;aijj0Pu6G$P8yXamO@]NJE<NNq:]1_x<Hip&HDNOTc1UQYg![k&I5Pl4Og'gr[tX3j$AVXlrTKHi$MmZ)w8wAA
6yN(mn3=G5r~,a0AS0_QyULmqs.e@QlyvtQlBek&Wy.|B?;(>S]%8WmSr'L8(L7s;22]%&)v&;W$kBRz?.J1OE,,qy,951M0rp+r
m3K[N9G@wgo8oO_2JC8NR|N)3~!p@E?ONLS3t;=$S)?ClNfK@Dm+Fv19DG_dl:yMp0vbTZ]Il<)BEjLw!/J~IA+3tDDCkP,r/xd4
=PlnJ:x9,)oQPWQDhD'Ahpra980L_R,Jg|`5DUZ,e8in)c%!5j!gAbZi'R`E4OwK:.Ux28ZNi6i(/Q1[,f+QfqOTlIS+VH;dpYov
85v8+]JIz/f(S:$/]*&9~WJ(Q]>9MwBp:'QR5^$_`Y9+4!+?XSt6!|GTD5@ymYbUD'j]'/GI|@~6Zog~oCf>o|uIZ6.|g'@hhAWV
W?/Aj;r+x>bmj`h0DhdPHI3cy]o0@x%i%i566M)D1y=V*S4x~@7oWM()oABWKYkT)<w:Qom+(KfJ`O|J$3e_L;tID/8MO6I~YWa3
zO&R>1H|q!/I)BFt)HZPBBpMukh;H@7,Ss=_jorO2mgVk=w4xJc_!qBKp1X)|./q1BQL~wr<w2f?C756',vfGhMh)@l'g+%?)7hp
AS_xS|idl92gg2Hl6FeCJyiRka7pfcD*T`l,YSo_D(2WQ2]Jni$J9Yep2(oO&j?Q*%>sb4GFM~kJt@q:gVyvBg2S7=)vEf!MlWac
'cb[KOq6Y8|>|4w'v)kY^u[5yg.9!o:3Fv*o;tYlQRvYP<AvsG@1PB3zxt'D'5hfhelEyf:gd+Pz)SQ8ahYP0:cg_KGrk4blsU~M
pJMR!OC9;]W]UPyc^aEvi|;&k&0HT2g&]W2Rzt/$R>E1x/xfjE'^]1O|Vozjdyye3&42X`H.?V:Yi54zpMo|Oiv3jYr0RN7csvCy
1S,1tQ0~3%C5i~p)qh~f9se$g!'B6_t.n=X@on._=u8vVJ.H7>><XY8%?yE6P>?H',uL]]&O=e2B=`kmz(|vW*ELm4nD2Vm]MCR/
W?=emGhC5@R`+y5qP3?qlJVH]iKmhpSZ'UQA|ae%y6Hwz^.$9`G=LKnK.:f5Hu5M0_(hf75@R~v.p*Xw_N!$Y%nlE(A.Vl?T1yhC
WFJs|k+^TfbGPJ(z.C:w4])0g6Us^JBXtHT!jPQxTr^?4|vNkmh8PbK7=PDezeXzn~bp%Kb+'a]v^=w(MNifHBc1;25Ir`h^`p)J
Ym3:hej>Cdil2RlqDHD5i'I>mY?&8TuYDrh9S)9:!aDeLPgBoA81Vh|QLKL&!>kyBBLo^9/AwfoHYWVf.O`>&b%Tkw^!00wyhgge
5r,2ISM,VH'uzVY?8hOk9y.AKR>BX+vF2dN5]a'9O_$Lgm>tkMC&nvGXU%)&4ax)6cRGi_3hw'~u@=Z.rpj1.Oo8fy)Aq63Y%8*0
T[ucpMI_3qn=pmiK@xyJlM@HgLdDVtq^.o[h:w>6N4Dt3o3:wE!ylc'Q@&mu4@|^NioZV4y<W|<=dA@6fe+[(42UeME97'>Y|%9`
$4x(iT)J0?!XsR/kb'.Mc.hZ/6ojlS07$+_lj%xxF,oYyK=y_>Tks]J$D=,p*8T/whHwLl%`]nnOGpBgWG+rz~5Y|p$xi@@3+^kB
4gpzD!Wb)wUdwT2+qw>hyVo8!dTO1psn]a*8CIa%^w%ifDqBKp47:Mv[x_);B~~fP9eTV^*/GC+Q(YqJ$=C(8WLp'zt!h1e9Kfk+
!m5~L0[Ww(JaqieGsI3+hl$p],2XsT<9RwtoM*@WQsIMe9XH$6KcjaV5$P*(/EdH59hlfp_vc3,Rg8/`8bcntl7<|g(|`w)J,xXa
qOwe?>Kjp&h|MsJ,2=KqTV)42Ewcbqnk=jS&k*X_yc8+CUD08Opdaw9g~OLkL&*g.H7J,EVBe$'H%yLyC4ad^V+I$47THZ~]&Vhh
]BQIMrRIvQJGQVOc0<cEG'KSg|]47bO)KIruFo0R+.H3IBgM(2xAU]+ASQA=79$X<fbUY~cOm2f+W!>WjjOqzJBVrU!PBK`qdpzG
dOL^:y60>PH=yg~~U>8eg(r<?6)[kl/W.>t@9bx/bIJv:tb5KRUO<5qh/FMBmA:Det=M2b&z)?M|26$deI&d~!1ub,]Re$y8'o`4
JIsu4$/Ite%k2%sHuLtPCDwM/9ztKZe^j4<nuNx^s?CR&Hy<6'+Q4*n.qGU.ZDGir0IK7B`>|u>Uafjz&CyjWJtceNfKGRr.pHhU
nR@%n3Q!/*n(B)c?:J1N]/AV*J,(>a](2U@4JTGR<L,]z;+RGjrufyN[Zq*o.XOsNluBr8VXtXXKmbZ'RHxeAs>Z2N_[@ldII]Zk
K1t)|x]D8S2&V(,TRBl!u|fK`[%rDW[b'p2]4Q(VUM,+s;0KVoL~G4Km@rqPUeq4Nh%<.p(6E.qcWAlo@0dQv^n[@I~1(=N1^/ie
(Uc;9OYWt.IO|,Z%Zi;[7Zm`75P/|kgjGxbPTo'svZW0AKzn.[EnBZwlwp.d&&j6`v[&qO4p`u*KJbi.4yDxCl'Bj~]@6/u_|P>$
P<z:v.y+T*f=XxKU/L`OZ^P4MqF1`DF&174M*YM!`xxSc]qV.s&,p3<5+=Ek^qMz3T(:;u=.)IqjE.^9`|2<B=[vgf93WR7YI0@&
r&O~]%wm2|(MShCh8DX;emP(kAdC[Qzv|w*mB~.K0.Wr`YsB([9D1L4GF7R0wTd>&txouxnf@`t=(PCk![u^='a.eZ*O~bixSm,n
QRQ@T',SiDyEiY@3hz|xL:cRsqrR0U*Sgw.9b(ens?<!Bj/Hk@=fo,J=X^6RV6b%hZo0x?LnN|4]G!s9TAt@mEC6:N|hGz@_:_ZT
45*mqB?>P3h6ARY7&r7ZJVv+9(zI=wTSMTnn~Sc.yxOiqZtoYnTM5`HX9vx4Z?x&i7QeGEtF7U^UHgTdS(0[<42/)AF3:<1i%FQ1
W6pzsq`38(|yKmWvredD:n5;w6>73Fv2JAS%cF3zl72>bodHHF9eP%!jJ[Odx%<+Z9XkN(yc~JHNJdLfJ1(NkJ&1LdgjS_MT_&oS
'!ri9xHY7uKHhoET7>T0=/A5Dhb=_NE<F6t*_u`O@vActOhf8Ag9AEC<uGKMCD)vAKIjt&NXJX6A/.gxujfisT4=Pb0RUZ4+snI2
!6QxpTX;:|RSBES~hSLsu:FLoxQ>EJA7p_X7N']W016</JI5Irk1+|6fKin+TnH`+b?hx]^6`=YX_:1+CP(6PsEhPvGl|]G+&j`f
~4t28w$oOJ<bo2`EMQ@T7T_,01OhctAWJ~ooe:ginYjpn1>IKBen?k>dG7u5@K:vU6LUAlwAd2||Q.Wx$8..k;Y>%fXBl(xbI]uB
h^0L4[q_Ra$U`HCcP3yMU'c4*qMebe(R.2uQ=,H+Vt_/y_,l$7D6;KBYkN5TyC<$6s_n[qW~_]9==^Bpfs@6mcij.'5m^xO$h?]&
>2+e8L8FNK~*XwAHKC3N7y+A;=P**)a,K8f|V8^Vpxq,ogR^7;31(?jhox<zx7k4Gc|'s'n+A(Y?RKx?940MODh+/L$5jkL;IR'o
p+z`>>4@j~)vKG~lZ,]Um?|Z?Ltf*R1F?A7Q`]1'~p=Xb1/1l5aw2=H9Zw==_ihk_U8EPf,3/@JKb(pEr(W+eM=~;n|pzkKF2g&s
i^Y&0a[RnT,RNM6lPiBo/ae|^PpVrCf0a5Iz;[x?g?oJ,hG/wh&(O3/YN(jJfl!av,S/RIB%?$(Sd[Q!,.OceS2vALIDdnS/br+&
!To/3IZ|<56*hB1@DKS0).VLPN<965?YMe$8@90&T|p1A70Vwj=44;!O;Vo`HI/VRRBB[kjv^NS46^GLhNWr~)|4^4DWrP?E]wJL
4n4'TO).ZMuk8hHV1(].ZVPcQ>]AK<0.uB8g+IBRLueFJ@Cd:&^4t^8'Bkr?9az1z6eI!`>Xf[B!_>E9|]%U=FUn?kJc@k[p?9!^
KP*mwn*7hFz0:($tp[9Cw>L)_02,3DKxm/LQ*(];N(cHi|G^qzx@<9HZELB~)EC=IfAS^`(X&(|Y<`+_!k]]_4fI@a<KVBhDDMCg
.CT$uA6+H3<se2B:ENFj%@,(?/gR+aW88b~:it>i7hsX*7Lb;izFia$2!PolRH?di&OA&aJ`r8.C'IFs'SIgY,pOe3?h~/~8qLL>
J$fwQ~h.fL^Pgn>(,HpFNW5;(zz)@uzRKSaJP&%Qxg5~heYCTRD:(D/;$lfZ^+gCb(F<beQ80f`JtK08Rs65jlS/4kS6&NE~0PLC
ta9qkl%=(.z7]fs;R>YIdHPuw]prSQUmXQ)~h(IvmBZl97z^&]bRRh_5SNGNX&u.cxxMCra`I>a4)a]>3T@hhsmYEWs`L11NoTUA
'`~W9,Ief7gpJ`sp7G_bB7HVYKbtt`u5giBcL%[OZ=)PYFLjZQ6n=<=(,fk/gQK8KMk6o$5UKm`c@$WcAjhCL@!I+.l1)~_7FX$q
ZrZeOZIp&8QUp8Jz56_goa_$hjX~Y<5.r/9Eha?(GVp+B3GUb;6NzfNSA&k%gBy`/I%R,Az5)Csk[Kt)bMQlVwURbaF0@VWh&9ay
kZ%BA$)TBC'j'XgIN'ufvg~>coMbV1zL~7qL^1fHF&$WySgk88]1`dwsmoINFFZ$tv@|nznfam9=@$pigsAD'xTs.l^H>Xx)>7q/
EC@Ch+<$OSuD3DyysF9!ats$):O'*Wth>8hfiz3QPxg(Bi1.^Cs<bjLT$9+z(2JAEP(RJr2$)L`BgKP?Xa<[*1DpuU4q*uSeY@@P
C6]lLLkq*%lm3n%sRz:_(>~9,8Pmb?Xn5[!OrSN_uP]](ZV9WIm2)NzO4&!iiB)D_8/Pr7T`!ziV`u9igTU'i)Z|w9)7kkbCX;sk
w@+WjB*hjWX>vEX>xSTBW'lqda2R77oxV$1%cWaNN2;d8Vn=8Sz1SK^/yb,K;:9)YUibPIyU~SGuXmDW<hc~o`j.9rOD.q*:Y2j7
zd2>d]r:4xm,v48jSoWAj4)t)E4!SF~g`V??pMj?B(E2T]P2<W3Hcfea[ns:Z0F0IkVQ~H=g*Gwc]yXE;h2kup4S/4lARJ3Y8sFP
`YS$2tgOG,jBMH8%_PN6s^YZWxi<7AydBvgod^;Zmc!'oV]ecU8kKDweqkfL307;Azz7EN@~O]9J29sp2@i=tzQ40ScB_y.y1?,o
Wf7y`)nvL[1yXd2P~UM9I?pA,d0h)3@@~T!413+?D5/Z'm5cm>uvBsW9>QJTbqPrVsTd&Qyem_|E~vyf3;I=Jwsc9Hq)yOrc4hf`
m0>VfJ3HTe,&y~>'r|MU>O7Q~mL5(ZHECV/tyls_jF.N_M/^|wcC^vc:_zO*r1kDAbQ:b5fFd1MhVunv3jJKgL72_@SQ)u~LvmV?
dl4iMwmC1OU:isvu2UWC,^c?&htrs!]||e%=X'=0Rr1|K|stdbSC^&RTA;sVaEYP<$PWy(S2(:5rF_2U`Z!BI7z+n37<s;2Qu&1f
:Y^by42KP7$%%FJe(%bib.OQI[d&@>zsN:^PX;+t!hr7.sZg99,eCdExyOc_5ox%YL+H+K0]+*.8X:9TR`*)K2&Va38kQXj8(~XJ
HdJ:/rn3mw~w4ySGdL%Q!)<siO;wqb>Gsebsk5x[34C>[z$tAs?VbS('<t4rxFog/C*HP1Qag7q87v9!$Jfij~kWUopNIN:YEG@c
E)A(WEnF]!]dEoNNV/+Bx)G;tGIKw@&MEx&g90?OdYuMYI,=$R1tqVwZE,hB*<S5(MJyBMV=_JE&]R2TEUHpGAnE`9|~arl=_zC~
%hV&7<g,7u,;_:Rw6_Ft~MJ+w`$Sz(I)8se2=au=$IONKmI/2*sbi!%rH$2OF`EPMx7nR8tXNqc7dp?D;YjX&$/cB22NQ5EO'ZqR
cktITAeooN^<FOX[2qz)6)PZd(2JPl,m;0|bPtAb$loY*|$6dboLN,4i_s[5tcO*w6e/Hj;Wxw:S(XX83?k[13p^t2at/pNqHI0^
AyzS7K[]`R<rXV/OejZOn+%fyDtR):tkn_>@(!/(o*Ca0[bUU/m'z_uVv+M|]'o98V:Y<t]d<ap/7lU/ZebQFwO|$Y,=GxM?i<~e
/dlxI^GwJ`4?0IOjkcHD[@%tj!O|@Mb4h)~)o0'.0Rqqh=roVoLZf>'AsY8`7wp<mzVtX~1.EUAqmsfD)a,KtXaIvpr0Nh?K3qz=
Do?5zFN~mON|4x!*pzXawT,hdcl@K<)|=K_OiY!8SEqo8xyOHNQ[HOOG|R~6mzw75ixLk5[^q,XYYMw!UqC2nu9Lm7q_~TG|q|24
r$1A$45:4XGxb5EzpMf51jqp<Nlkt&aad:~fQsV)qaPAmUDV4x|VB.zQr9nX^'9(~TN?<uxCc!28+~jI:lw5?%[8|MCWhysZKf;I
wrk8d<N0Yn9PlTWr3+TkPTew;N:qRA?B<idN%K]&,G$;:Z$e>N>&_6fd:a5?mCh)H~rbht1A0o=CT'>7heYj?P*CyL_!0X7<>Qmy
P*U9Ev_KY!')Iz9?fE5TexUTBJ`k$g0f4/>b!uP.fX)T6M&a~l1vQtq@z7nK8G]/X=.]nV|hSD*Hrq:;1@_Hazd!L[@@nGn)nb$a
+(J;ctKJ'0;ijcCjnU?;4ygI4kjmsBBP.c]1i+2^n>iiq:%XoUSOCZP[2D?:9$(2qI!.Ub^t`h^D<(07h04/i<w[_qJY.nNq@hbJ
qZH|:A|1^B_acMxf*hQ.kVRru78k@ybVmS(eaxz~&a/M:11QyoO`ynVU>z74>SxxXZbc8oJpmVDHd3.[U(:^h]|Du'd,U5WozRvk
@8t$O]?cM68Fnk*NC)PS>d]hK@F!&>l@zDvjk3(/SrQ`/lJ6$$`gzEMxolow!+sx4*u'|`E6~8^,1:Wcv;ne':i^;*Lbpp1APw9q
HM=YZt:>@5<zzX`mf(]1$.]h?EA_X!O$F(812x$>WX5o1,;vSez(ac~P^w(J,A]5i^YQv4E(<7l)I[f/*)QP5Uke^FPNZ3e$/*bv
aA526xj.tuvD*z42J^E>$j[yP2EndtWn+kXypnb^wTWkTFiUnl@cP4(y4ruHY8|@.iLXkl6?fck@1X_D0i]$YZ3x$Gb:+RJ$B`oC
S:2nWw!_ziQX0K3cYMTTY+`1Qz|lf/ad>LA'`&ECe|s_d9Y4uRi/OM8%eLC&&,A~v%/3T=qK5~m&4GTbvi&Nu?'iOu~_he4.kM$e
d=G/b:&+r!]On2Ri.Po1C7l^X:5+QP9h9'%|7~|78k54><m)F~C_6E(;b>F.kWOlJt!a5FqGeKrCyRG=D/8XgiZGGZ<):?&S;o<6
*Ql>89tG)&k]yhWNLA6OrN&RoC1S)1oh'(WJ!:n8D2WRcemf2v_%A$CT^3.!6hjYt*</9su2Bao~u74Q'Gxl8=ZD/Q8a^nyU]to/
NG3o3^:Fw@n?CS&ba0&h2iWhx4PG>Xajy`;OpU,1TVbN&je.*ju</:ASEHJTx![nA|E?f[J;NqDG8|T%Vws4Ak+<&dN4O,?W3oS)
Y[NdbUD*k)9~EJB&E0sY9LIMlwS!zz3';+QM|sk.?yD&mlqqSlxpi|[[>*1xPZMLG|W3RAGrq?$jJ1,IonAi|C8'!/&ZEE!X/Qkn
6SOM/;l9L?8tWkOzJ;xc<vU2J`gr'@Znq:Z8@?T;3iw~kw,j~(Oz%hk3<Gv7.f<:hAk@l$'f'bi_M@?nQxBQ^K95Y[EZWu.]nxNV
~MieH[qA+;NXv[.E%HDfe*vSDlC2;jv7dvs?Vnozf:YuXfwFUbZ<zrUhV1uVm&U~c46+jd6A0S^W>+vQlL<sw&?am'(4(Io9mxnt
Vbcd7lUYM]^6M%QQYB0N?.oJp$rB4vI/E?dpz@R^`83i01tCIl!`Wn^<Mh&S%BrcABC2cdZ7D,(9j0JN^o8hy@L|Csl>$S!zMCzG
X`kMZwpfUT!%glV,m0hzhHdZqek.%gBA'gHMmF)X3D;<,y>K?0CH?V=]=2!:==<9jJgb`pvIgv`m6y(ZKd7l/qVi8b6zlT3D$*j,
<~!FBOCo*j3/<rX>w8`ecp(nPDc)NAQ$meQG,HzgI[j_r4NPEvdB$_.HW$sBNL<wtznEgL3!k>ils0Vf)O@vxY2<SK1b%1<QSL,Z
_]'v)H5XxLt;,dvR95|Dh?WX'q)?A9%AA:()@LK5f+2IuJnMVV':t8Z$n+:qFctxbtiq4MO<O=stEcReAuS3x$I'YG;wF|KqPKeB
w.rWRgxp2rXS8?u8<w'`D<Kw0/4Zq)'0[@l$:s*oyDZC9sb;jf[3mk2jGOlh<t7DYL;2/hV!H__$t[+?hx:;wI$'Awt5z%zV2^l+
zAGJo4)VVqEuH[lH)R!9eVSGqHxI[iieRVceY4ygs/dK;z|SmsyCwBD]mkS@>WRjf,0a;dR:|lyfZ|%p5xpAaU|P6L66QZ(B1HQy
9lGadUt~7YfR&L|Hai|a<h`pMX!&eM8oT88%DO%,I6J6%qs8vIOWFa!kn:!8E~QPhh+o'D;ElT6x'S%TE(O*Lxqy9V?aKjpk%wu=
s~)8!_g</VoMPN%TIdc6.pH6YOSNU1F'=h;yOMJLCWpEjabwi%Zjpp]v`q+1@D29DJvFHvKuEuu!GPDe%Mmoo*4Inu9yJU~:IU,l
v2SQ2.:&N+Ra9SwBzDVB:WE>::Sqm2AapAS0)ppl;yTwUNuf~)SX2%Y!3@i/]Az@!@g)a(Wrn)O'!t9.Lt%8>%9zsatr;y|*>F)k
YerhxRG<k!Vbl,iglyf?lYzfLO^9x|*x!nZwSZY3C_S%[yPo.ADQX9Ke2:':|x9NSmIz?JzVPIF4P34v._;dM?LI$KGPsUOZ/h3p
GJ0.ZWFDmLxuHQ|$Ch^Y[`m)+b!F_UlGst4&ijx.9RE/[x6732@&c5S/.sNjo.A/ZA;<0FJ71VE:J<6O4BqKOT6phZ]]=leu^bUA
XBCD=B,Fs[JCcke4Udka@n]emF6mxfz!I2NqM<Cnw~]K6K[c^doOQ'2sLcp@xmfKe.p%zLyB;/^A)7h]+/2ooi]3hDm)*,sOXn]l
vTRxwR=/z0U'U'q^*F^Jw16GpI~8)_l?&Ks)%Rf9(Z3:XsLkM%057)n*NV+PvMr!k8T66zcPm:30Q<,r6CyYMjI9odJ$g=bi7[aF
n=mO3,KlG%U_IzQ40.om<m,157iZQHr/aU(.R|8W[/BOt)9Ss69'lPA(yWVz69V+=5Gfe9aF.]6XB8<XR&Yd)q8f_W]7(PPpH$&$
)pN.nE`5F/$Pm%X1X`<&OE^0EJV)VLxp=kWm^3AR_0UR,1<!Y&`HT]8~uREVxHT+G_Up1:V5i1[]>:HYvceeg?G%;)U1&/BdB0|@
)zy]]8OG?M<ZFc%@B0cuMa4?1=sB4yZ:`WoMdQeBP`Cww8?LpOV$R0W*qq%o?c_Oy0)*QAhdLk0(OlP.)apnVe^^_>DwPK6z56+g
NSt|ArEn&1xOv>&aQC9b3UxH`hd|5$F&=&A;YtO%W%zecYebr='lHXN<c,3aLIqMoK5~8AasKYI5E?(_1^pQL3))KY%!LJm|J[`G
[u)/oyLtoday$$n?/z;W!xR%>[_aTRnoEn9^(b1d_?b+i83L;I`2X)NG6Lq~/!>:/ExAI6X9LEx>^q>:lYna@9R+Us<fMUhl!jTI
kGOYeZtqDMoj&nK<MhFopk'bz/?=r[p.)^G&@<:5B~4xw;|`]goXUUqvE28!!D(0p/+Rj&i_3U<vi+T'%>t(&EBcd4<S,wP?Yzq]
$PJv;fS$_%DK6BI^X^XHvxUT4i?t.E_Ol>~DMT5OJlEqjnUOrtJc1KgXeA/F4?d1z(0XTaS>2]ci4c`q@3KFp9Dv(V4vDyml%`r)
1.<8wNex~84vI^F_QDA6:F3vNoQv!e@j`ZQh7Uv&TB6Pd%,;At'Zq7z_aolxgyGOY~oU3s$0bEr?e5_A]*jw2Pa&])XG:QUn?xcN
Mb4w@wz0iZ]*c&vr>LAlYae~|:*8>^E57cW=jA7zs?E$y!9i3KaJ0_X.5eEwUg:5GtdpII[8>%d2zd>Wf_K>hwvSmWa%Z'kIBPUR
pGmC$aDy:~Syd1/67y7QBn25*EICjJ*py6X10j:x~E~DrQxF3+][^s:4:W(@t_8!C7e1j?vM(oe'9SM7rbSyM$4fpZznTvr@@^0n
V;7nwa+b6'/7cbw>zt,dxV[^xC2e2UWsJ!|`=u^6lZ~6vF7|jZB'+w$!?3'6(=7vXB25]?4%v<f*?d@@.]_r0Q6J]JC]alJk$L)K
ux&Vp!nUoCDAT`U)MIA+)FzbusPi+mK>+G]SJSuLSJ5I&M^<JC|s3LIF1Azv!E)l[p*E)*/92wYd&xdU5a;m3UI$wRxmJhCW)[~*
|N/0tMk5>EgdT!,1:kAb_b7*Q!:M*2U|ybI;5&i1KF&LC+?E+p)C6m%WOT]Mp$_|FA2od@h%gFfNZ.Iouv)%VNN800ilaxKaJ0K`
epLZjd0swgwS%6fPHFQcp0n^.a,dv@8F!0MFU@>I/jm=yo~c<BcS6.vTc:B!_7xN+Odpk|0AuqbOSB5Ru^W4=VVbFj~c=:`fe!q*
MQ`FmeeREA9EVilaW*JT^%0E=T,DA!9eb8Dw?jm/w_|:h)n_Kc&Z.@18Hy!U5<]yfs;DJDQZ;9.]*BxYwGbr;>JjdLKm3fC[]/A/
P~g=?=,<neqnI28LM!A[WCAp::NZIYGxV9'VPkhJ6zy?fEmMnD755`A'8n+0Pi<xGWFP[Jl134%7]n4lIZ+,[xx!=1lhJKl.apUi
2770fJJZEQt[~Mn.LUk||oQKB&irEXsodeL`HfLeW|bM;j|Ne[U,rNQBl;h<5E77rx8A;oLKZD`5A[dLE^$*'Qfp56rF+xrN5o@a
&</Wjc0P_qCdu$G6OZ2vy!d1>teAz,rR2qv]kH%)=Tk$>$YWpbMye>=%i><J;5@cs?cJ6Dlu+<dTz[(Juhttx87],Zg>!v9:GLoj
dcI!XcrX)A&d0hg:I&=N>=3Ys|Iu_Bd]*~SczV^^0PxMJwwl0x_FAvx%@,e>OEoE9n]F*nf<hjp,f7p(TB^*7g@b|T*i*0@DB6zP
bJ=;MJi*7WQOt9LmeKF/yG:^kmMtK[MRjruo:69&AR/`UAW!XGxnv4~Na[_nDb)BS8x|G]OP3H5'.e>SpeJ^4*`%5@mb8u*dk(7O
$;yU3t&lsHhBDx<5bc~p08,^%~GT2B[=Q+63;&M:/3`.|6E`$aLNu+2(2Zxvz6)C3*Y_Q(Gbhzg0v7g.V[pjmHNm5kk8LECNd'Jg
r[M%i3@Qz9Uk]%w/d:82Z,2=x=Sc/;Fv=:8e:djAsC/N`]vnY$Z'|^l8P+y*N'/guj;)C.FEh05R_Ezy$:M[ng?8dLwk5%X$]xrU
HU0*O,8lDd&DtEG?k>RbT4F|V,iG;8Cw;&%Aw!)Z](QwCl0Z+94>wx[9;B%tbtp.0Ukt%&pqWLGxvqW!(G]j@txA>Fz2s4uG5t8q
+=6dcsY5!1_`Hf=*EIc/gXFfy2_e&JVC;UVX'TO;]1gqe:A,TYn,[sHq_M^3,KB=AIHgR;uz2rJlWG`V4]M!U@D+[p5bL4>4R!h!
S!g<A)q>Jh9w9Bm'H71b86r&k98ZB)kEwWBnTw~jgbN<+tvRFf+CkPY]60wWN$Sk4H.`SuQr]fUj'Uxrr*,*[]~qE^QZHjAQ0;/7
x^'H`>7'.,H?h.U.y*a+8sdq[a>`X*TGHweI[OJ<qLQ9I5[:m*;y0^J:qS@UyWRXEgv/l99+V3(o_uyYLB!czN7zeC+t!CO&XtyN
768jE!Mvm2DgQ$]FnG]?'4,J0m')4m`8BC1!(DpjPe$45!1e6thEN=W40+X/NN?h*5,Qg]A;V$Qm=7[g~rosXa3Q2Rj:A4T~yO)j
bT)qnY|P>T&xmIglTrgl9mxOAY$nBg50m]IO<t/y$S/?=&WPw6sL7a*oGlt=vG`@]%H&gypn`6x=_W,k,4iL2f/K/ZKv(&fz(CYE
2fHmhmi,Cp3YH>0q+yk+yU&l<16cUfKbw)?>vrZqe=NRZ|bd!a;[KE.v<QuJw]2S=nQ'j~rvPNubyY4WePJj(*62&Hg![O'JH8FS
;d['r]|1HeS@1WM'5FI|Dx+'EjK5ee7XqFH.UgoT[P^;abVs+%S+~!GYOti42rDu6C(UxoaHt:zL*<oaLNncpTG@1PIXPaWX57r/
E@dCtbPo:)j|7tzzx2eJw>h?Y_aM@!|ng%+B((Kf!`@4r<hz*t=5xl+%_Qo96q&lqAo!L4/^umMju4cXTa/=WM+G`.usB5fp(CP%
0$,bmRc(;l_a9imE$qoOU|T/oq%.Hq8MN:rqu9*V~F]hYZ6),!hZ_ynn4'WueUI;*ivH^kM50]F5C~hMQmSayX@Cze:wLXDVgPj]
!e]_RO>Nj;?qa^rG>9UxnNM/;$z=r1pU.qec(.yPa8_@YgCS*E'?CmA]1)X/HeYy]bxRFEOBF%W$wu$+u1Q@p,brYucP(v+BwGwV
j*8n.WjZ<VO[Sm*166Rtv/?GL<Xvi(lK!a02'cCrPL~=q[vC>Sj'nUaXKeLXXM0hZ+V1_LoHhMv,1Nv3+FRRpspb?k4:W]meUJ4y
+,H^+Aqo)jd[|DG6]QnpY&3heAv<`O9Ln~Q?@CLt=(8v?o(wHcjly(mBb0~w2%pUX/@YNLwzsb3h=MH6(+=6f!QI`Uc9LHPmpf.n
H9qbsT5P(~c<g5b+N<Idfl67B!)WRO2jj*tfE/]P8J%7IMdW[J(F%Y@O_;wDKg'a9g5jMF[W:>d3nyq/KxC!5sm`_Jmf/&pdT'sG
U_`1f(3[C>L7g+_8xu)whVL|neOP;u`]G)68Bh&ithG,Y[`j,%Swj~$/a|avC|=Eo^i[okKr>ST7Zmy!!8S^L9z&Lg|u3)nPqr$!
E1pwmo~ZafBBNZeHma;o*lZ5t5<FRi8%Rr?Vr+EQxig4tmf?y~b34@[bh*fM4liYA>&Eu:NZ+VX[8?ZqzW*/m(H~kPS[?9j494r)
aS4.cTJONwwazG~|CW'5c.^mKkeS=HuqZs:R./FJ0;eXumOxz`UdO=)QyY5i1esf0<c;dAE3tkypdOm+.G59az@m.0sCSGiK($^R
IWEQASxf3RKX||aLQ_buC*)S^f*AB1x8vq8/F9yw<Y1K6?xEIOre3=XH0.]])fA`)xAHP!+z=XIwv.X/YzLhl/;(J7`Lzetz<Y&5
?,+TT+eopT[o=j+qfO4h8keQ`MSA_yZu*>;0L)CA^&@&R<C$q4QVuknb[sZt6>TTCkb9~dB~TG1~Mh)Gi=bA,QYUNQtGw*Z%X.WQ
D1I17e*UE:e,1P$T&Met4Kx|(aBIpM(;j+`@uP2M9xeoe3^g8v*N9pG:7%Mptimswng0>0(kvhRqkjw~l,V:j=Ei2?O;z,OID9|k
Br28b5`^2v<ra@_Ngw5>|iioc2blHX9GLX))6N|lk|<9LK<+H(78@QNE(As=]N<v:n]bxuAT@*f8WII,u3wutj4,uIv;Arq(lZv_
1WlUkmjT`tu_^1l$^O`W?J~PGOq+xRgK%u~*_YpK2xeT%<v0q6cdEa2Vb$Izw0qFVyF4;w^25*S(UUIWwZmcZQG<e;'iMPm[YK:2
YDWY^d[~9&PCZLnRMZrV|KMjj36qkE<L1hz8%K~[8GX)/<+ayRvo%^gMQFEuqFYeyQ6$+d9BxwMd&~XL]?6>gH.'1e+A5u7OcD_u
~Q|G>u68pt(9~UHQ99!=EOKBg~pb4UPoxL<9HP+p?=4QA|GX%K:XlTg>jNV~wW]^L>6JL5N!]NN/`Mb;gg`:^9:R9'[:WB*R%m1+
4_ttc5&hiLw&uO.4q]~Q0a)EBBT5i2Ti$f>bsr~rHtBjNsBPn*>4CJE^,2U=,Nw]Bp/7NoHAsWQsTa.Bms,IM.N+/hN4W>?Izv7(
8Y[^D2$i;oA$g!))R,VYlYvnEwO4yiL53/O6iI[?m**nD<AvAi<BvU0Li$'cC:|?$X%EDqb)u$5wGP7vIllDR)ko2N88WeLP[^7Y
8n|1h4URc8l^X,4w4D<k2Xlpk]Q_J1nKj17H<RpR0:|!K<USPGgYjyti:+b[~[^AW|vP+z8K(7zoirf3e[2.UXh3q1GBY:l`sAL2
<eail'xCyL~5~hUAW39w?DQ=>ez(=y[%1TX12*x?O!(dKYhORJFF;?S%q:%D_1]rfxHWQbwU^85jY:pivci|3a=a7vzV3TVOv4L3
tjZ1/4R|+|aDJluM@b.BX;%M|O01Cx4HJ<Jf]h~@gR|j&1$4/SyfHclj^0<b`qNp+9em9!dWDIZ*[bY:LY1QFzvE$Frd+/j*|>.i
Qr32w,JF_!$:Q?4cg>)mDP3NFadWn1&J~usWFB~By`4y90kB(Ar[u<@W4]!!xX5i*cAgn563hq'CGtg3+;d.mv^O?7FVse*h?>'v
(0[5618U.0R5@WH.aD)mwidcRp@u6=$Sx$/iLzhCQa~wygkqzF(Eqr[BV',1`Qz5=Hs[>g?c4~ebM%T8wl0uMp?&qCSACP]S38Lf
G.NxQE<+pH??Sw_PHvf/e3bd5ehw|9Cb_m/aGNbaJof+~d;_1q=:d`5G(88z@%=E]iZ~23FG`>45XX!UYSgJGIcVGT`/;(0glzSt
!~`uVV$r7impql>4KI1F$6[xmBV646$'v&dqK=.+hkt(MVyHC;R^+0^>U<8m~<qNef&;B_%yK4aX<C2H5cCU6=:d<f%VO^^HFF*.
.nL0x~yR:+T6+[YlkBH9mUpxtmTE[67h3ijui;Rmpt<SyL1SNxt+Zuyfny^,6t((inXs<W9$ZTj4zMQ`~iTk8hWc6Ka$9/)AtF<(
3PBqCKNz3K@2)VpMzaTa1G~ef)E^3>y[/vihiVE?.A53oL^.f(EY.s6OasZIjd;0m/&_gUodpZitN.iLEyG6a%kHiIEO~*x:XohA
l9pfZ414zmv5gxLf9=@qLwi]pIO^Qf)F?~bld6g3QdlMn6yMit@Elz:g46JbC<~ra~6U.`&&u:=,0Bw!MpY:Nj[%)D*d60Wt.wOf
SxT+VguJ^FPop?TQOcCy0)zJvwXoZMvYOMj!|%$;lTmw;>2)EXg;Hop`w'`,A1F/VmX<A@tX_Z>IqZm5k/w7U>3q1u@3S_oOBz!t
+/]c3L~evKfp*CgA7iJw'Pmn?z?J:Y&|/4]8bJuHUL=sX~a9I;p%y<ds|im*vdp@ve6m<D;0;gI8qvBP@VByL$o/7E&]~U8iO'rY
TnU6o@*,M`gD1Ep=bgH).[aOQu+L(O:]fTZxS8'2Y5)v.2sb,MO!:<?f[U^,4e*8<9+Oduxoe?$bfL@^84zO:fq71,.$Hw:/+zMS
e!fXm>2$5_k?xK/p6XAq.,Ki4r,?iFXmC<R?fAmhq!fC]!2dnu8Oek5bY6Zz(BciPPDAl'bye2~Ew0UlkrQcd1DqbGBX@(=&!Xlb
Y=G$v)F*0gF`OCv[=<kS6hy;oV~Cw~`@Oshrx.qC)_b5_Oxr)E%xmtecLtf.3]?'nnsI&(h=UR(!TwvR>Wl<Il7Y]I+[d(;<y:Pa
V,UN1dJ0=O&XRb+Ek)|y8;eM22pn[U`_hps$%J^<pS_;>8)t7ern_:'jJSryo`y(eXRmF0`NhR|,KwII.4(H3EiO029Mm%M]PWo!
o^>9A1mi<Lby;_wg8ZzM]|W2[,gBVMTu3_AT.rL0PP'$A<Vi'>eBkI`V%*QqZ)r(<p`)(T5Pf]LB^mPyoHr`Frtir<wKQ>^7gZ9t
nH0pzO?nN@L=K]L5t8LKn*x|xo%[+&ji]Ue6@rsD])%6A1!Bl0)~J%t&])y;OGU/vUA*m5gnh`Q2Bbn%7gxP&J[s|/b4y<`__:<z
TZ<E^dQTF'F~2vL2Wc6*$@v^sZ7(X.o%<%<fTBsd[|Ol!C2|dge^P:g34<&3=O=^r[8po3!jn?g'Q?Rh`X0bnNZxB<CA8=B2I@h=
OK!@:DXprBL>Wf9H$VkD.Xc^0nv5KAQnQJ14:P|@%6xsRS|3f^N:A:mab=GY)Ak5@Hz'lZ7Jw!7G(2*.SnpVe2[?OceD$CbH0Geb
sjMToJ@4El8$apR$|&)M4>)liv_3$n!uTcX~;I.=alAWKnmWxPn!.q.Rj=(+?I7rc)ud6iCC[QkM+Q3Xo=noVW(awIvuimYfjqVS
@M_G*TkV,s.+v(KYhx&5`$_R699'xYk~;d8y$VO$l^)YQXj8o@Gmt;CdNPAnQ^,!@?)>)dGMuiOw(&%)WHVyG]W0DlME+XMEMmno
'(Tqih;abN`VU1=_1!G5MAy17$f`2ix(HTU[$ETWDHU)Nj19dchi[[Z/*&kbq5c*UTM9)LX`,X<n1IxWDT$tJ;6kyylGi(q241r]
.f[d=DvRZM@gxB|$lEQYR<45810ciNm`X!ZZn_kHm$MAEcn%SosccAdleD`aZ3tmtxP</fjsCNaibF[YGy~zlN&Uam4TVs9,j]M1
~fH[XYtr>CAI[r(6SA$kf3MnzoMUc@Ab|d+boVu3ddltRTvW;]E<SXdN/RRW`(NY?Kt]Ma+R^D1h5?+o0RAZ3bvD5pWL6Yuuh'..
+Ch+q,.E4q_KG:LMN`MuwJ?ofDfmsa.H<ij((aja8x|~C41z3hjD9xQA2iWOhF`|*citk<>%<EthZits@K5kTo2g=5EddHYt^j9m
&KRt`%;k*fI;5dtSHrn2l3[f/$A^,|AV3VnqWd^&=]rap@jm;E2O!$rM$4eBXyss9az<idE]*2K3fVnb:FCOlv6HRY=oTb,M+iwN
ZE7BRGCv.h%a&E@Q~>a+&d*LyFI(_>LTi%Fww>9!]gz:A>(;Z`iOJwpUAQ,ybJ[oSy1Pb9>cZg!&f@S+dL^tC=,lPdUiC?9;(lxI
V74F[Xv8zn8=R21'FzmxeZyYxqxlxhElcwpt/n(Q9,d7m6gMbML_!I@%p!u1uhAwXY''Vb/J?ko^E?;g62+bW<%<VsHE+UNh>3Oo
cNT45IJ.;D'&C@o.`4Sx8Bgd=oE/,`_vbBT4GD^&x=+%`|8lGa,S1>ES?&E,JRomPHX%jA>qH0U^A5WI0KR:[riFZb2g7*X9?[bY
^HH3qCzK/5IsMisME=gK;wC@M9e!x^IcvBFT9V1[`xL8Hy&4W^+1Tbi<Fg5[`3bv9Qp454WuOxrH=<P5Wx&e*RZaf@[6GDyoHG3i
pjU=Fdhzml%.<`Ziz`Tz0&>GO(C36f5esF>KH_MeI|&q]3*5.h5wton~Cpm??oiOy|V'g<6$v9!W6+gy>mU.81AZF7.ku>mwEZ3w
tq(P,49g@>Ntvk!V4eOMAv5KEwq,zv*JJ'.[E[7>DWWo|p;`@2>'!g:+|ciK)3Me[Z+n&V_bFDn)qStSXik^pCf*s15><l[:]NL*
3UB)Jj(w4Rxy|uP5i[=P[o!kW87%R:/wkmE&vMT4P)r=%0FwUUD8ov>dx1V_+wV/zPa7Q.5w$*YLn785Hd(,tEtbF'@s&F7rdJ&4
=b0[o^$0ylOK`?di$XV[TnG5i6REm4e&%l|ducWj[F3Zmq<fg`>,AoYoe$OHMRB9'!mxt2XBZv]gerb3H&[WMu*bA|K.MD]o!uXh
HU/AOXm/gn<<vqv%YwOzloG0jDa~id6jhdQpntAF+jiZO&A?N?tu3jq;|*mM18iNa7(Nt.MPM$Hd4!:L1CImu0@(^I:T4iF9E5oP
Ao3tlGi1H9V^u0|ww5_AZI^`tqDtpgeMWJU+J0Dp4&/3ETS9,_,D3aCo2Fw*Q_`s*~QRj3lEbd[jxK([4Dul@t1U(8V]I)z1?eg>
.]W0g)qYA@tu!N&SZS.LL~yFI!OJl_6>UPtN9X00oD5Wj@$.Jtk&oQdHd;jT+ewq+8Aq~KP7C=&98$,a)nxGs)pw3/)'/GUFBNF.
Nn[6N!)%,OG)>=Y,Wn=,6Rxd+~o@V1zQ40_<naF(LZxot>Kf.]'eJ5Y)80TBN`ybg^o&D~kRc/Mx_@?4&O5)w)ye%F/LY,$LuxqB
rj6~+y2BXJnBL@K(ey~`t$+Z3j7;@|dno~eg|nBvd;cq?Zlp0U?w+qqjj2z<ip595^ScUzv7;NvgPmEKh:IbqI[=a<+uCqMP;yI2
h^*q~/2y!E@co,xes*03Lo_NAb'e|KiU'b?95mDmAk`l(tg=p>pI=NCX9:=3*<M3mBbPjh=NYUizBOg.H)Q0/u,/>ZS|r^!+8Six
1i|prnY<zl.G2(~[4Kynv&A*&n&I@9z4Qs8^z9Qe?>3<sBWDyau%CfZW@]NIH6kyLqV<MkM9*nE`'7OS@PJGUzOK]HZ=5_phO=gn
YIFit%t)+tI;kNE0u.bWq61'y~[q^ZcObaX?20CIVQiey1n_3L+!vB)w?JjNbu*/*wX;~*$<tsFizq&d2455GVd:TAWDkgq*8_(f
sl|bsA^@b.FE`9KMW,gx|N8if6GQ=[dKZ$[Cu:R)33RNQe8<wGAhI*_h1Hpy*~$g_J`no>hBLhxoZnPN9|yQ^i%owzjlpKgRo3=l
2H3fr[w*>HFC15`4sPY/K?3uKuwG?9=G_p^dsZ'LVDd+n%fx`1>c'ps3*r5?HS]WlsPm,dO=/h)F&EJt(5b&~o;arXn*I)xx>aWb
J||3Dp2A?|<HL*=X(2+*gtRYC|2&[N(:RxPJupJfQaqlXl.vdW@+Ogz~K@n725Q&Xt'`IT!./vnvAX@QN&)XrFrtn2?PriDF>dAK
sOA1RjPprH[6S]H?fHifCJ=i>SvdCy5g?7y>@qtJyLM?TgIrpqb)yktT9bJr<zDuy;+EGeRcrHmoAr7;@,dQ:,i_7_W3FWC`R8q;
;<$G8O9uuQZS)'TQvqbb)Dh[.oCa'+LUKwxu`SZYf,Kg?9dirzi:3&bCd;T+V%$p8N(hdXBs5C&!krf7isws,%Dymc`y+DJKc3y?
kvN~W|/2y%*^ze;J7CmKCyV!Qlt?^>|[WS_?/f3tXR!3G)6kS^4Sm`^&SzW+~|RPe/3*w7dU56`ULL'G%m'ebeZ&)9[H'=BL0EMw
VfPGV.'V+<sXe=pe6MHIf,2JHmCZg`E2Zv.qO]_`;&zw~+h^pp$JBU3A!yAdTKPs0@;[FW3htRS6l!5tZI57lgl|.7v.h*(0'stE
&rr/!jVUWw_kthUv>/`JzlIntB'_95[8S]fs;)R0RGBpmB@sp$7]g$yotX|p5:i(nYbRz9mC2:Yb[o~2Q,([3b]IH~SgPp0`Vk=y
a+d<+$srH]Hl+MkNw~@IigQ+dU$/U6._:)C;*H8*3]mSb?/HpJYWe9N6>:[1pbH[s4@%@DjBaSd;2D.uuL|kL:<7R~a<@2e+X$5Q
%eT'xL<(mnqQ~JX82wj=mp2P=;fQIIXr@n0,|.'7N|S_KUVcmz&fO(d:$uOtiv%pY;.'>xuDq)9+K?5ZAzJN|l~7Ey7RZ~w=>xDY
L6`oLDDmhy!LRtYv09HLry1zTt~1mj56@znF`oVhKcXz1.N'Qc;vthHD82epJT5z+m1jJByP!yMG(8;Ja+2(ZGc6'6`2_A$N3SGw
cF.@CGue<s|B,yU4cMc;g<1J/S%aLYVoUt(0gvyfwevga_VeBcSa[LmhSK<1asZ<gH^)%u6[ML.Im5S<<xc)N%4iR:$]%k]:MwZ%
bV;9W6>>Tka?|=FlgOT4lqV]RG)(my;2U.NmTk@o~]4|^dOp^nuj&Gmj%4kd&9RAkQ_p's(8f!'f4a_EQk*ES><6%Rw3K=:G2/:O
I9PSGp&;).gVajg@]x|?>Uawls15B*`YBQl$]ne%pXb?],Kw$|%/|3:d6zh>7yq0x'2*95FQ;vgu~(I$@MIf.fQ5e2o5pT9SzK9g
V*FH~j9,SW:w<pF^`DQnWmfN4(O&zq5^/_eItG79Fua.[%akzi'.:rVrGjy:9x]O75K<4D;vxDst>==e&amL(]c']C1jxv2xTUHk
<d_^o_=@HH4qdvrjsLM/%pfR(T<k!LRp6pzyLrVf.IRzKra&NX;uE||h,TMuMUNb|yV0xf8XTWFS8~PHJsRPJo.fWw],0u|A+i5P
*/[$[WAR,O)@(p*TR__9HfPX+CpfFpfkItwL2.??Jq$A!WeO`tcMLl9'Z'SW(b&HoA7c41`b_13VI0S&P22wLvScX+/%VJq[M5yX
8_MeTDOOK=dm!v?^w_yK~zXYx)mJTem(YYLS+d1B/`oUeH,>O3BRydv<S|js9ZMPh@(urjsDsfjQHS)6Cs6)~N+E,ZghCb74VB/S
PRFreUwAC8&f]'MG2N__c5|/XB~%_rn[2?Ii|$^UuIdk&<@YCMTkLNe1En6j:(_!l]%'N.2fd>R]'NrSrhI&aU`)0KqjM]I31b;S
8VWHin=u>R2V.Sa9N3RcA.fK?YZ%MFYKf*w)Jq/I`5xvnA;&cKFAv)4<_C/wnl^m73j0~fhPeG(<XH0BjC>KW^FE$fau'KXWrt4<
s!v[q95n7pyceW_P8M)f!CfO.G^oM_@$<<OQ&*SdhKI&MdNlfimigYS*4Cygej+<V6MinH:dCVqHOW'K>.E2b'r%6.b*wZql.;`l
w:!dhQXHbmEGf3SNp>r1c9eH>q,@y+VChIsh(]T/GAjf3%iIEgYGd@,586c?1+qzX*AB1<1F~Cku8]_Mz!nTt[;'@'s9=c_M_d+l
+NtBub'j+HXpLO;[zOPhplK1@_`)L[*3kJ~G$V:ju/N:ZHP|8BaJV+R,rMeDfv%V?:fdRl*WV$F;wq_t$Xj9]QaRni<LP8KwLCQA
kG$M;6fKCu1zB0:mAJT;!wM$cJ!.[em[s/?F5Bv%lB(_DgZ<Y@8kG>`aOQUW/wlIaP2|=YA.^XRKH)&3r7Bsk^|V]ik@MqG^LP6I
``k<J@AI_h~*6S>6C%@Er6]iE!d+T6@;eIYseTrAP&'Ia[KjvFn.J.DVM|fJ,vrqtEx]O[1E2gJ^ey+AK2D5Rc`lEkBuK|mP'$Wj
~M:,7jVle3fHk^0@X&.r&Hewj?lIUrjvZ<@CgkeRN8,c4$o.)s+i]2t>>jJ>XJq8H;T^*)W?HpTo'/CNDbs6/2.+=P+[w;yG5.[V
Vyk&r_$s^A>QZHOg^3r06Ss!FoAWcrysyB/9N`*AF9[ru]&_Bce_Sg$]Q.8B1v<rI=^cqAni>;qpH(fjs>DRLT1ypf0/:.6.S,.d
0Yy[4`gW3f|gl,]d2@X:~2nEJ8)@M0)2U1!8EfK._NIj/yr<o0eIHE[1=zF9Nu^k1o3rEc:vtgxz=h@:NwCioHwJ<yIdL:2N8%Mq
sO<m7+CG5T'l3AE!p5AL8evpa>EQ=w3[EN$=|@lS:EjuxmEpkYKsG1j@6HHbG^i:A@1R>%3wb.U(TeV&af+?bTCusu%4f+K,V:a!
az|^DVUi(bSc*g!`A~r*;q,YZ4T?[j!I_I4wULggS_Sq8KX^(UPyA?j<<vy<!zw7g;lL2+ZJ>f,CkznY_)&Vfy&<]AXo:laclml3
J*)Lk~>l5aUn3%^&?4d2JN,Xt1gLW(4<~1?>AmhqFgw6I[H=di!a2*(EqJvG[LwU%~E$BP2moZ$JTpbN$9;cOs>3:vZ]N)s_+^x$
O:c]w7AXNCmpKSQc/|+]W@nM$d=e^1IGX7wXMuAjb:``4koHsUSuPiyjBLhAWp:%aVA`SF))rI.PNZt4J^JIDxIx=95XFkX8,$/9
=j5zE>+C*TMHhbtC]y.E+I29a|_vZ3FQUL8=h0[4//$sOhg?GFGeO$Z;uDrcXOMm(En0X`9`nc86u+Tjc8;+.B;.S|Vh9BjX8R4[
ctVnI)urG:LewkE,C~z?3XGU0THlr6yOtVrHO&:]=|,.S3[=KvyD6'WfFI+z_P[fl2gG*Q%A@_$I>[I.Z//IhJA>?ztyZWC0jnkn
QJ[+VauqMU2~8S0Q:r.7B.g&,+T`T4ya$1B+`?h7ioIojxRSvt7I6`e6|B~D(f(Bd36Q(J:/Ngpqr6U?<zs1:FDk~MVaog$H9yVd
)xUkVtE~zws^hMAq9KA8V_$(4V^+/$~ID6Y*iwN`K0Qa=tmmdq!=VOz;MXhP+YfvgCRuc[qB]'&`F%&E(:K=%IK+laZxb:Q+;:RQ
(GuITl'IP:'8xS;AkLHtbOt1,)vzUC^J|`Sbgy7yP=sa^2Dr6:o/?v_r^0A+P,/!q=P5Dh9hB<NtSbrwHJ[>fz[X,=mWldA%bPh`
FeZmf&b8|WqIh%.ZwO)D)0|>wmd9I`d%+hHq~P`+JsA9&Sb![jzX*24G10+YuT%6&Gmd96Ltq1w=67moObJ/q(4H6<p;Epq9~?tH
k3Ef_+.5!/Gg5MJuw1fjy1MC*xS33TM&a$2C[k1lAuH9F0)c<5Uh;=Khs[e8Sqq[92Nv9^s7[qA@_.tCJ?^CH?1C@X/wgNA1GJe|
9A=u<HCl*SYMimAIeh1r6,E1<7O,/tv)67S'5r*`3i/YWFt12MUpo$`])qX']+>Q%i5tZrbn:SU<|1/os9.QoZLTBqfk2OD,,C1.
DD|JBdA>b@$AN,.)4[JphVvV!eci4bePm@@^QiCZ:+5xkqXTqw73gff8hsL3CGUa]T$mK=w'P/`KUfS?YwINpW?rmf9ggt2;~c;f
w5e;ln~.(d9>?C_i<kF)nJl)$>3A&^JW/NwrP*Zs|~2Q|bfVywqP!;<N2,yXLzrCB!:(hRf^ifuEQA?O5?AlO;6EGQab7m'7aT2!
==n?zcncCrGg,xdV|kgJzL_2Sz6XrCBz,!0WElL<9L5h[+))ifkSapW540MaE=Yb~_W4>~jhp,~mM65zmv(uyIiv~8]FG^*FE24y
xhp<GE9Wa*t[V7f>h[W.fIe@A>XO4Ina:BJN^j2Vf1g0?Xmwas%npn24;&dl+'5q7~AqSK+j~N=)u^eMD8RtNZm(R0g!sd4m@bC;
5tx<5W't>M3A8zKCBSTi4Nwb,k^^fEH^+*_E*P0Z.)t:DUr`5Nk[v=&((GbaJ&vXv3EhOL:Z9`H`An7|7=YA@/N86SH4b@jf3okS
pl$JEw`AAE0KbtfRb,yNw`@ms%@dF!8W0g9%zP.1[ze2`6h)I'fCQ(i_fOH@]tDUH%lqvC1$vXCt!2mwzCaG[6B?wh.I]NPa@f`7
Cz:URGMHNr&Pk]e2ShFMLzWK[*_t9Q>Z5LaVEM(F;.R+>!T6p;BzY?uO715nTD@V98UZo=GIAuO=XT0CpIE;dHgRRorXL+C5+<H8
Tg;(CW^KI)/@bV&<=Kp6fmC[+WpG<kq*fGq]n+9Hoj|J6<yf`/iHbv'6.~tC)b@GG/'NDZ(;c.g|s3FG?%yolkdAAu'W?X9eVyc(
:oB][Q;pdB?^Qx%0')1CjH(H&p?XexX^bUS[LnN*,6!_:]l5FQChG=znc=tRn38>[N>ipK`Zo,JbcP&^zB`FR(&vp~Nj_g,YLm$%
Dz0rT:AsM7Rc]C7JHeNwXa'@Nrnqu$d*^(YXv.s])La;,/gzBXQMGog!G7W.)3|dRVII6.nL7k_G78j=0ycL6'|0kuG7=vXe5dm6
t63c?Y/J!uxqM7r::zv~fK&tR?m'yn:=|@6jnIyVv^s5~JZ6bK&:wXePUnDexf]d!8Y%w'a$zq/I>Hi.Be1S0?p%&]hgm3+JSu+2
o$[u9~sIAF]6<&OB@=`<>~S![L<?N_Ar!~5@FF32*JdKDj|`dK3W[5Ktxb.UJ[[mp<Rn.lR)G2nDePf^r^Nb31hG8K!hNm|pI.wb
:Nq:Zo:pustEtBE'2Z?uH!02;QCXrJQDif+?TwSY,Hpd!uZPFOoks+jY9vOm8>OMyDFT~>C3Ud/VXQ^K_Wnaz$%JtMbU>(h,KUhS
_1P?J8AkpzhbiO0))UYTNq,+)ps@vFc3n:s9YY?i(nX.'p.!B607XKSigv%$$lueH84Cjjn^7^ic:W)@!1q!yH&2KHs_A)_pLpPy
bw=x7<|KZHj*2Zxm9WzY,?y&CSl6I!)DIK0;C4|Yfr$I6==^e4D?cw'QO|.~?h/ipz=y~rI|&$WoU[7z6(8Lu730Dj0CEf<iHQDR
!%EiWH^DDU$)XTQH0yQn7a3.tAo)+GS3kTeO@r`:Gpa**wv5]J@ZeCAho7+n_S()pD;C<sJ%TD(Xwta/`)bTB.!&cu],7l0gwB5B
RItmP'be|~;keKBKX_U;:dy<!@/~N;<^1DS)axK5B$b*cX@U_42FeArOXK~8Q38]Up>M<Y'^L19v=f0|shk=)~+3m@oqe|yvQO|Y
>]ltds)y6*okXhnDFp%AXwF|<,XnIEwx.onpDsx5E'fsNcBC/9yqs!d6K6s_VRds1&j&!=]/5afpPq*)LRIc3w=8V&<K~^ZL*$0l
?M?=pdev!vq:PcY?bie0,oLD%>yn<lKP$ZvVJPQ>Z'+MOOJOtriY`5a4^^egAfN!d>^EX;>iW4%)AkxFR5'h6@MPuM9,(@vj>J1E
<r:4!Kf9Qf?%3il`cDJV_NnpS*ec~U.`wbRmUr_)]f/.fN9j1$?0LmcoZPU3*LL4XhlXp)g_G>,npF|CbHxz1o%NL0a>XRB)K/6'
zW0q7/sunvZZ_HfF|a!Q7dKun4yNV.'lycX6^X?HuuK!K!$yhFO)rL`Z2`^YYPI?/n`aqiQyr!_K*LTMB0GwEn/>V!XIlq`LDg$v
G'i(z3o6!6PUutbjbv/L1oho2nz2D/V=?BqtF5aU/YkJy&&33<~z;H_Fr=YS~ab(6?)y]W2j.akrIzbh<@U[b7<z+A&8j'EZql&[
wpYTBT1N|VGz/6h]Mtptv]u/.h>i&;/G0:GB5GX<%sC8?Tp!]Qp$?D=FFw?9>N8>Ckw8P5b;GK2Jvi416c$zk~^eN.havrGYDyIh
n1T8.wq8[^zSGrRvL$u3VL:1wyz>8S!+dc/X=rIyiSEVIRNtDm2N~/9!fDAM/yV9&?)Mi%u?[7t~aI%S]Mmy0NTn:z!$vH^DJm^)
`Snb6Hll/(@Uk&>M@bh^&j=S)x(<NGyn1iK:QR~na^[>7)wAqv3Elqi51KC|/33`v$Q&1+Xlihh8RKSHKSmm9a%Y~TF/p3!_&Lk@
(eLL2Ul(JT%kpq$?;,fP8_e5[tB7WO@5yt~zR/0$zvC?Jto|f;R5MCN5KN@E^)sAZTt:q@rSf^Fe^fl?s,F<$WAEUX>:[_sfD,Q>
jl's&64XF9r<.R&O[d^THX%`*<N9Z]2oiv<S&nGH0Lr.N/qSWIAKK0U5a_sK)E1?]]&kKK$mOB(Pmhzx;9xe:0w9W4`1|2'4NN8T
&@A@unSlAs~TuaI)1!E5jUS?iFBS3*gu[l&OmMO<f&Xa73IxT+xnEE<_rM~w^pFbox&hOfU0!X`n'eC@&h~Hl5/5_IZSXl9OPcC|
kck|V02jUH*ony4[yDujECHn+X;gr;6b&u4lySAO1rm|=(2KfS6|k<^'koMH,ugSQbdI6tr?X>ajYKwiw_!wq_yfCbUy[U=@j8T(
sHluhOwxwKHM'E4gLs.<?ph5X?[Y!d8d0w2,YPvL1rhP%4TP@2(^Q+a&:<X@8>pA8$kti3(IgtWF[nn8*W?^yyx>oOk=*p`&1o'Y
1xJpxVunN%20:~wMT3.&QQFCNWttVlwwOyarQF/146Z7VO[mP=oG<q!6|Bl=|g_AT~wp!/T![4Ep`u*1Bt/i[KYu,4M(Wcj:f5B.
HW5.A!80C?+2sy$v<1iTb</tDvfA3,`A<Vdtqx<f[C6Hwva(+g1P*!'e;LnfEzeM9?c*@NP;)xAym'o6mS'>b(LR$D[z%gu:g4;l
Cvd2enQO>L5jkF+!@eqL5G7f=VXh;T|&h_n;WCn0~i5sVUw+<,dN&=QlShnaE%mJsBwkX=Z|bt5i=3q>%Pkka1%^DD(J^1X:Wh=Y
7LCzdp,RCe@cTiKdV$4bNQM0V%GE1,'K,/AnDMnr$[YvfzrG1:qh(ZLQi58VoNz4<<hU`BIbe]8+NK9o)^wi^;rChId.c]o)W/4n
M|+<Wzz61L.b4+.UZ`ocb>iF6D:X?L[@_~$*l7|7k/n`@1AR9*u3$/0!ovMnQC<GBVoTU@TwEc/rutVkvgcFK6=qX?wkO_&><Wet
b|$8BD?%;Q(@VWva1&6g?jui[W^_NS)s%(.';RKKwiyBJ8y&c92h0GR|r+85K2urMVl*.sp%_n27JnOYh.s>*d^20?K+1<tpFcOP
(?cj+l[z+^qw69_7B4a[GYI%j+*3mvUUssWJqoH'.n*;,l5SO_Pchg4vI8^:ptRTQwzfc7R%vq4^|*;BnX_R!EOY6?32s3f&+$U;
hCnhX[c8y=+2=?sKf$5@iclQ+~(o&qhwNfP!sQ'tw7]C!aPF<obPLOcy@H9mD8d/4<res6W2[U!^_W*.A]>9P*8LbWb.amxTY<>_
N24!ta]KL'P<zgA+eNmNi><0Kv]O,.7Dq*Z8y;7pBK;Y3!>KHKu4'>7X4$SpW|sWFB~+T6n<;AKQ?nPPTV<,+tJqEK$.4_OT^f)/
Ns9EKM/ZW]V*d'sPB.J:!l@a_:V*/@ubk$btl[uhHq31YynV3PFx1Etd93t1bz!Q!MxOPuo[z,4X3dW[UM[@Fsw_/x?z5^[LDrrj
C5<hNO@37;RClVJF13et%X^qROu)|)O2=8URRgM`,Bogv]5oZI3c+VBviJ>K7,dY2Yqxa%R2E'iHDP9L]WFns%4?nA<;[T9mh>N[
L>~XEzr>G[uP4Zu_+yx)vh+rzT/v(`X9jN<M^g2H6]V8y!~'n7DF7ckVSHA_mk/XB=1?O!=djlEQZ%x8m)4)RaJK;yET@g`~o_?c
XKD0G$E7L,KuOy:)+vbr^m~W*%bIOfT5pnDr%BsSa|ulqXBn9*U69/]dp<~rsONba'pgYkU:qw!3CC:!i>A|vhYd*gJum(4Z?9<A
o<kSW983h]tCIImjvgobawgc:Sp~S!=G@go2EBhlV=n^n6O`D2$sM/!mh)d_KT16~~X9&m*e%Pwj2X84(9XsM;;+NjV!qCvDW6Jk
e`.FX0q>Qy%M059Ct3(GP]pCH/F=waS_ogFyFel!Q?tLPd((O4+`k@cyhWZ6:v@d4@+zB!Vm:v~EW.5taIw3~6eLTESTAlg,^5/H
L9b;;9hv^|2)]$5|`ofVy7=Y'*7|hQ$X:9TS9dIXjyM)gIa?bdmlK1*y0,VS,g9D3>C<XM''N>6p],|<n%0+5j%y`&_s+LFux6@X
S2s:Ib&321g+IxH4Mg!:Yr;!rbun'NTN@weugusho]v;9U2CkOsp1IFps%:Mp?P'TcvovTyG)Cmp;.:=I:&8%*=T'IyU14UrMDU)
O4='h=c,J.Y4M?a4*QR5z@b~(<NjrWh?0]kgYz+U=j0`wcpGPQ7c]ichS!~6&]Vq$lQi,gOz7+S0$$U_+qs?ImI,LMpx&iJVPm2B
'IoieJ31x_.DaGMTzpg%V(qN>kXZZn)gd95tUE'>lPx9XG5d$OHz@,r:p_2v9l07F9K_RCwIxGUM7w|^~&L^Fl)LzpIwjS.ym$DZ
DLY~'ZGyC8+F=x4n>oV=6KDeRz62^s::JzDl:e'/8Dmizc_`/P>JM1*woOo05c,=V3^>6LOwq,Vlb+[F^~9[6d5NnItUAiy8`t%[
$I5Psm8[5kF]zQ_RI$jX'<1W1^nL%=TJj:e<Pg6Tj+x6A_'Kk;ezYckdt+P'V1hD~e2P0gU0|;;(hq1RJlhC%4]zP^>]LyJc[r$l
!88d42NYRLk`FHQx7SwG>f$(PO(qxA)kn?)=nwvIn?TV:&;:Xx$s(qb_>=uc~:`PD~ZN[A:,g]E0)MI|va*JLMhF=O8t=MQ2tefe
!*A[zK')|9Hf.ad,RChDWnKo]/C?R9qi3=QCJ(t`WKecJJzg@PCVm,A>?F>_nPFj5U;fV=v[lNFLh^lAw^/Y)a)`I]L4vx<YDmky
r;=LbCPOw`P^~T&Rce[$&Lk.L_Ed`*^Tn`k_],!]?6QQTs651K>7SuWVzx;Ft&.DhAM1HMP]P5o[@tK>)g.qw:'k5dq2[E'1e4^9
5/SxR'wzdWxsW+2ff55E[Snb2)s260bce:!D^PCw!k`?_mKlg>&<G]=ecmG_dAOK5TuBbPJJ4w3WAm'p?c|J.5B>Y?bq)9i8yxy8
rMG+_XyOUlQk7DTfxAkIeQ~)D3%O*3GEqRbQO5L?J0:gYN9vd)OBs'7%8c%sOB?l@1<lBUb8EoEdA7,PP~pt`rQ:ghr`~&rg~Gz)
0sO/1s~471!.e[dMS*?bMPiJbrBl%X2B.<xmzKc7%YI5kfMZr>9T;/yfsX<Ih6WtqyL4H[E[BX;rf2@;M(vh@s0.&2?cR`GR)qmT
o(iH]9rdfSJl@J=lg>3jyJN[v8Ao$bthhX,OPB_KTHQYDJK_[Y?;d4Iiz3v6T?0V)o2rZifKnysjG+n$[zK=@M$mS>]W)WDyjKX]
$$^8`$lfL9=%AR^$CW,S/j~JH'$,<mE@3NJQL!rmE=BoPx.XiBq1U|o*6FgGxi~9):ouUFH46rlGgdjcKA55B*V2/`qcvs4,==S?
(bmaa]!1|,,]3C_<P6EskcZncqM7Pf$0COm49^=&>21FsQ)$qyi9,gaQ'.f)l?9(0KB8a5=nd%R8?+!q1%Ld&ppnrg^FZN7^,e2j
J&E/S~t&Ils>ws`MfE]vla9Z@)qs>]tIEgATn)W>nN)tO7pMp6C8oEM5b|Y$Am?59_LmYk`6.(@4IthhW.?dx~@|<:,A@V<CNh?A
~%j>idUbVZX[jP7'6MQa*IU@Y:^6ah0jS@JE0v:Afp)r*qd9;aI1[L[^D|s;>)z.H]T_qwM:3@&2h?.ENU1sY7r[*!0Y.YGh=8U4
y/t+,n.*h7bIJ(EJ8UO=q$A4)Y3Um%N6;KsaZ8$8BE8iR:k9:i0NhJmT'eb[=wPEEA+pzTEx|wM&!k*=.|uwS`teT1=8gJC%Q_=?
FT`HQ3w6W_OgKr3f/THg_duDq=pTs2@he^,~M703+%>^i9]Q,QxF70Wov`cek!=bSj&8/v^3NtL162*TjQi^pQFqpF(O:JW^EXoF
H/O2gOY%I2bS3.P<EEWZbHy9)H|g]n,2M&:p?R^n$&53]ko)K2IPpDx8JH5VMED/xxq5D)j/N3<Srbd%v+f?bX;q8OeIQcIUU=m_
?:W~67n?+UHTxM7(?M!cey9c!A]%Dh$SstrFj9wH]b(AGi,l|A|Tz+p2j?sOj;w'X6KMAnu~p5kQlMu%w8XuW_ElH)b@WIVurX)_
Ks.PBe+lt'&hgDvhbJ@cCj0u_=$ITI>=~=Nlvn<1+,yz]!KS'8]Z2ql?s3+v6qS0queiYVk`;<Zn%;EX1vDJZP8&cZ&&[Hk''XV,
IHc=m|PKbubOvLvY@|1nZ(WqnXdEF@1+c9dleX~SK$%*zQR')jBNXtCCje:*o,U'78p?u*X(9huzFM&J)Pgk_VBq*rGfzq8dIh$4
j9yldZ:JUv&)<i0aj~4*mirfvjvjIo@q)67@Ys9=y=Yv'Is(b|f?p2`BVGO9Pan&;n<Ji@f`LyUKw$A6kwkmHT@rP1fQ?TYOYg*>
zZi1JLd9Lmc.d71Ixhl&y>Y<%qG!Y5sikO1*fc(GMw%N^!TC4x:KOS?>+DqT:g+gx7/?aZZ%u5(?!`G9|KRa7`=>O+S[tNqt_^NG
,SXUfCu_&BI1t40A>n_Dod04~IiDsc*n;JeUlaHX<;2&fN8V;?n6,Lc.eCesVeO7O4FS=A7D/i@09pJz3/UJS(yA;/wZ[>1[r?na
nVm]56~(s^ccJmx8>$rsTRP5cMc,P4ym_@v_L8zZgo/MD3%v;!.^%';j:(2guI0<xK9i&^WrenU/YjI[Ey?qyXehtZV_iQZ(^!10
VVPcAh^BTL0J'1P.Yk/aELnRf`eG|2Ln(,V>]=8q*/sf?k+~*'Q<t6iniHLoS_vPpyqjJ5`nI]ElU<n6S=R,v$I'nCTpFv;9MKrS
'(!:9.Tr'ap~36s0E%Glbt5^o^N,!reuexc5'31zMG&l.;Ol+=CHnfCTn7i2rxg)x+|j4b$zCAqR|82Jk9D&*|56nfVFBAFy`/`B
ChX^g'rRtkD%L)LXeUEApve$!&S!a$`^]d$>!nv03I/pP^mb|^l=UzGSbxtEIzSh2!Gh5LN/e$3pS9IJbT04]UCWj[&P?`kDIzwe
SH|,[3J3?+HAZ])FWrLJ$Rt=+x1PuMPN=<Y9a:[%:Jq^*CidpJC4%l;h).,Lku.N(2G&J!0GRkSw~VK'pCaPVQG7*>EWRRE)q9BM
e]Uw=qE%R0H|S3!l^R;Z2ui=_[S|_Ys??I$*yw+eOIp12bgrlgE5^fu/o=xxJ'8LorNFb$M!1ZE~?NXL[gU?$LL<NJWZSF8SPjmB
L+iIj$_C?YmK9jD_jM8niO+&Zm9+i=wgFD'!YrGC$)J!>%$&7H13?3QJpZ0w_hY/C?|dWDv3'oWf6`elDrqi&GKg*9G'+0o^j`0b
IdwCw<Q'X2w(Fmz9Gp65/[cnIaBCuhS!e155FX'^IeLqh]^vUP8>8>sCdi$@[rc]CU_m,V%ok~WEjsIjq=e9]vGZ`]kvBT,m?>|G
im|[l_YXHVHO,,glv;iLkrtvpR;W2Ig)]Cpg>Fi1X/d@.jbM_T!^/wOOx`iEy7&+o%FWNNSsloX0wV@R'SDSi5VW]H=6R$1DnQUU
@>2PE%y?&v54xr)6KFUxI]lR=IVnb)XYSxx/[@zZq!Wl@|`!an1<bj25NT:|jINlPS_w;c%lT&7PW)wz_)~BeAW?46:Sgzt=X18$
Vl4xVf^m+./+B@QaWxE._wImNP$zQ<'V(8fU>vNQ=oMa9.nrekTZHZg/(oka`!)@j;,g'`S;7,.QPQ1yNa/dKmS~cwMMyrOloT=(
@XV;biIGDk/y.A~6,D$WKlO|>(?fMQ,+o5)YZvn;HuHr5q'?2J2KDcgKFhj=2<tT~(f48=Z%Cl:7+nhw%EPNUL46aDp4QQT4/TO^
.'j0)&WMW=DkO5lqOY4C<=4N5D7ivG,4f,%e+YuMZ:GGSd`+5C4E75I0gFP/2b[E%8?leOB3XB)5bu3Ewkzn>bk(&.Jwa7ddJ&]W
;srJ7bLD^wHw6Sp2.FCPl3oB2ATxyWMzCV?i0Oa.<9'w;.GBfwWnVA=<$R^XVX0nrGUxy~SUXxiC)a6H?MW|Kk]Dv]w4u++&_3oa
^X$i;h<l64l'Z,*_K.U5gMrJf]]l^x'fXT]v<WI!r[)j<iZJCdk?(S!7Y]$b+5n&1!Z@+GdMaIv8=7KK|d_7OQ|p6T<`jc7Wi$&d
%/u1C!~|?w@7tzsi>_>.=9[17&T)qMfNGp~j?6k!F1)lMW0<x%ty/+x.BhguM5w1g'UO_.9z]S8Q@aGl1vNgY'UEoPoE^QX(!ysz
kjJq!eT5Y,xJQ(a8R|]XX]DE8Rf2boRo4v<ZvyLOb_9I~NMi[qOYDPY4iK`.~%R%jat'FO;XOI&IeW'EqXrLZGIb*^&K(js3pO.Y
O$|eF'cog93;9NQ?yhypLb(/ysgidIhcfa?^LH_P<`_gUJKbg_Aq>i/Ht<**1+p?>:ZeGFZ*YhMz&~Dm7rl!^6e^nuxq,A66syr@
HEg/uLMraw:$rT*HxFirsRc4XC*pNIcY>Q0E3mT4i(n>)1ImT+Xk$OQxCFk&_ExPKqsw_t9'(Dpv=wAu~k|xLJ)E8hQ+>?aBU$)6
)M9[L0~_oZ&(5A0ncUzFOT77:JPg:KZY9UJUIqf6l5V;Q8f|pJy7RlJd.u4LngWEtsF`!U+V[H+~?ZUSz_uH$BXZ`,?W:Ai0AlP]
905fW/;Q.Fi,n1qXArXyq?EU5yDmHTJSc!d8gbukCCjorl3FU/kr08+RsnD&,J4MWme=ubAf`K~sp@MlCaKT/f1,F8bl4TDus%3I
_.Bij.$XFr*E.np|Pp2$2)<EVk^l9Jwf1qTZK!!S'c;oo&*|:ogU3FO&>[Y'sL[s|PfOhQO9`:K!ke[xJD<W,>h|<V8RV.48'jvD
/p9xg@&!lzD(]<)x=XC9Y;y%~i$SvQIn_,[Mh%zeBj`^)6O.^,Yq&q4MqUFrf+[S70=U1%cuZH<@]fM=xFq34sl5c3H?0Wv85e=l
P?N/b=HrCnipw'C.EEk$s[Y^@Ib_n((ZPHRNRI9y='L*.G9+[Lp)eFdE5_l@%)e=RBGhl[IMBEgZP+M$Rh1pdr0OIEpU^5vn>VNq
;)8%Tx,6X>RNGZ%tYnO`5BEi:!*ExoO)yz&X9V7e^AW'2Q7P4O[ZzScBP_&v'NFaFFC$vN=eI)QK6>BZ2scDF**M_3%hdeOfCW;g
%I7PrIs$xKU)Q]7JhIa|)&2<HMTEKSQGP;]xwpE1qHoGmh&z|j$gvf?Gmk7clsN|j+]0Y:';pVr%QYabN4%!5G`Sp`]!a]rGUKo<
:xtg$zFpl^?]W@q73;f,y62R]'BaTv|jr8V4aX[17QO1PSL@+i6U2cM0=H6X/7|L4'';;c=:7Mcw*/Ay[%f1^X2+mW0~FmW/cssX
:7z(/3UyI,3kQ]<R22Ho^^0:+G>9P2RC`AVMhSuGP'3l!<N)c`81xx<mq?j!fw`yqODzScj4uJ9^PD$rFtWm@dqMGN_|DK9G5iN8
=lSFJ[p7yTrg!QJs'x>v:t1IDk^>C?PIR@^f+|pH@l[WE(&7>w(I1Wt62wa2Sy&AdF]bL6>P;[w5Ee8>v'j(AF+OISLAia),v./K
gQI,`fNEBkVXm0*eaFc]V?Xs>.6[U_fw981B=`7MSE$3*yr=]r[AV]?:I+=*xZ&Mr0td,@w:Qd9O;6]d8F/f;:BT6guE<b06qFy`
('!.7AjB>i.7]p]N_4!*^D2I*;^bZdyCZ'3e5G3.WdB%U&yN*3mo.HxZ_p;(32/b9_iRJyAbZa?vY0p=3cJAfdDm/xEZ$`k;I4T3
=$vZ^FrSBuw69=VgvEEVFd'R5niiyfou@hm,oT2)*'RFqMi$tn|$n6^B?,:qY%`P?1zXPE|%JczPR7f>/0BS`czPkdXSaeYF7g~:
$6~nCH1|zi!a:E;;kZWJqu0ID=.ks(*o8w6tO;Ht/lq%`'%g`7Kn_hD>aqStV4KW0gOLmZuW</WImio=!m&*vVn7*b5ZfOXC6cB~
]oD%FceCxzwZfQdwBPrccx>W/H/Tx*P[EU&EY<]1o]j'H:CWte~S?7D<8|M`!2|'a+dMC*f'4i*^p'4GN~:&,chcw]7xNeQH|RJM
&Y|b>UkUiAskRJ!T,bOgvh;a,xyeqdlbm~)A^hg>LzETGgc6BT()VC7DT31`B_`&fRc~pT$CK!GFg[>Qg$$)`BV=nR])HJd*R6Hs
Ldvea*olM[^s$c.Ej]FgK%zay&~38A!HT|w_X>k`[=;pOTvm'XI`0B|W$??RV^i4M_B%nZCL1Z!PCp61v9ZfE>9nADcF@N`'r$@0
V*Kfq~xQV,|atX,IMo.d(=;^TWrIvRS3pw>0srez'V4RM(y(%5gX8v5ll?;CD!hS(H*U7PP7n!r4,3=p^]x&JYrtvhjeTM.=@noy
'LPp]E7?*~?:HoWw>*D3|P2`N3;+Qu)]YVzdPkBkIEpX(/36@Th*.ZVnpPwW@KG5dCX7hp=$+X0k]fKFb,,&H+:Opn%[$MFc.Tia
8mLPB]FzPAZDBhL:xbu$F8vnLZ7fs64N^D~S3&iJj1'A+a@8YCrLG]&|_4OuM3Dcr`K$a32b!.:gvWsy'U|J'z21Ws^`ou8f=_;^
_)[OC2'r7euL[.J$i0sgSo'@;P~PT=&]G/c!i%!D)f==%4Lkq&$*SRvJvfB%i25DkhxKWQA$%?3'&'Vy[)6*/+B,:O_UeCI%esld
x/cU,n%Xt~F_!g=DzkQ&x!AgA3MKb&E7Dz+lz/E)w]PsAH^Fn6?_Hr~.MQ=@wlUwvaVFI1&)&Mqt;xsPrf89bqu1q5cQzm*ET2>K
'Cl`[BwzHQd;YISUx`y!^wSZ!JO/$<n:)s`c~;WAQd$~p:/w`j/CEcI@du8/9t'>io9Vi7tM:Zu4VmrZtcz2+^e<3miaJ!!|>B+!
o^>i3/zDEQsym6Wn9+?ow.;bJn,wByCw^C]P;s5:s27O`ou`BZIz=o?BOSnz:mP&xy]ip~KgD97`L%~zv6BJrCd:47jr(qW_87/l
_q_MI@Aj.CT8qtCYP~1$:v0;pNnCsEi8e5dfBamh@qJP*;W]4'Cx3vbH@l%bOO.mF)ci>Tf+6@7YT~d|FO3?~M+m0C$65UGM4%12
FF:gVZ$Pgd@W8hq<gk7YvD~.bf&fpcNTscEgFZj*mX%&4Ye00QvRNz]1Y$TJoRXT`k[pVupov71H0^VS[k!c2osi3kl'vs7R9BBa
[Mm)d3~gp.$='w6rPvm&0AYV]3u.k5Yq|Ho]^.U<m[zdL,oY:sfe)fe|t<7MKI>RI?1=ZFMAxo!WEe*ANTp)P3$K;(]rwhmQ]j,5
_JhU,Iy~KG]Nu%DFpD42W=PxFYHcOWc*ai~1<mq(le_mnTxHsj>1QKU7P7&Cv6CD!roz8iKr^:X0FLZi=I@3DUP%i);VVn`,~k__
=[HHyYWdC1HD/aewC.^pnCSUHn6+@*J9zAj.:XJZ'Pga25N_IGt9hM04aqoHfrwd7Z>o29pzj%1ix4IL,~pf^Ok(H4wD~+I;93z~
%w+`gfza9jd<Zy*'8:'HK!$j/i~<h2!ytzXjljT(.q(ysy`D8$J0_q=Vi_,:wAjcqI2.K99gV7lA)rFYFr!P,_]=nS8dwDX0<3;.
=.=qNMqY5Z$E;z$X[X$C'~%sS!.?^0j>?+21,d]*`oUUdEb+=!c_(/[8;alV'J@rl>85`[^>+][F$>Q2l~6.Wd)[&~R$8kU5aC~L
*2=R>&*sNBW&u7&Fn1NqOrLfzdSQ4EsO(D4c7Oe('`F^2I,Pl_;^59<^;nsqLkcvv]LfS@e4ZtTbV**~%[^lg:elu%,(D+E3ve$t
[[7r]zM6u&4)_v<,5n'V:HaS%rNod/FLJ.rbT+cKN$Y>^:|8WV6,yKh|fB@a'>/&CIyQE=;|e5vC3^ryvsalHcS+qA?<h2)GUqrX
Mv]WM+myaZs?L;VMz9hMKB>U2'IR!Y@yc+,f2q/?2P.9TmJ]aaYN_dWV(Rvpf;*bw>)4c],kaN:Phd&3~YJm^^a~wM8$ZlvkU)UG
'!y3d&wQz^u<3C?s[Hudb'rPD:M;t>TL9vq@4Ea9.MKFN5x:+;S/mx%s$Yh$YdF9w>$N>nwh]C~=(GFa6/?Oq)QM5|%ym<Tj:7Mi
)yASqZ%HIxR2FuB.OzflFkAIYC^*VXzOp=&;PnJ7V=pCo~[2;34$+IPK/+T2!qlPaC^BS?Way`jqV);9U_VxIJP@ZY;n`n9ah7u_
HK2@m@c]4(]X5pug&g~a!kkT0ucM$p>Fg*ORI)7.e'*!3si|h%dsHKZl_Eg53[SXvh0EKlcA[+BKJQUH:$$Q]G=oCCE`uG^W50fi
D.Ux;vOX5VntsvM')h&AOa%$'ip3hD*[C,78<4qzeR1)5.FVhb|8%Y)0~h,?s6!,Zoq2r)k%ZLmsobVDe)9P(zE*'h':aK&t9yAN
`gd/Lf%k?JP/Z%qINsd<pG?U5m51_I)ssdU^0JF9<:LP5oL140bNO,K`vL!`_|~%Rq[f;%@VaAO_f[eg_~iW(DT1HY^m>6e,!mlI
3WWssN|QlYX/aEov|R2~WreDdl^.![0Q)FlP`bsJsd7eftuZ&1g&,Xt&JlcQGFG2~7v~^CUAwp*s)^uLhd1r8dwCc$q.zpS7@<Vq
xmFd~xl(7/2J!K2aDH2vR`(W&Ygcc!k$s)gJbYxxF!&0^Wc$AP=_^,ps^0t$~tpm~2mq&7BtS6v7],is*tO%$<wCNJGo]Q@KFfO0
^p>D88<r*~S4Ne,4Q.A2BO?ENU%iS`vy10AhuzcO[[WiWe]g=j?+v/Y;R)xvHx*TJ83(<b(e|CkceZn<8qLD.64Z(k6[KseI;Pb)
OMEH`]d3E33plBm+UP14E^AQb[OL=oxf,p&rL3@pDnWhkqR$I=WS9B.RzJ$~R]fKHD~w*Z=6H/ky8ff]rdv>meFR/,7IS=+T2;4'
X'xTJizV]6eQJ[(iC?LgsP?,oGx,Xp_b~cuw>1P,P(LWJmq/&z~+~zI68[nW)JJz~R?Y,g+HX])mkcz|&fV@)GrMZ9GkU|we';`:
*!1i+<pqnm;c0EF@5Orr6CfwCJ2:p|B%I9)*)pd4KS7KG_mW!mjNPjGX~`@INq3PWzrb'A:M'H1t|shWh+W!qP.S!vfAvQdIFwi[
8UTu$d1lsvUUbL`PBzny9:6e6KUKm(9Yp,q41GgB/$lroNshn]K8CysWN/<ujj7*gMv>:'O*IMWy]]DJ0H;MY*l@hVo,@,%5v6uX
vjTbbUH9(@%n'~br:7D+rpRYx*<vDhP(Eq[+L5jM'MzuSLGp]N6L[h`SlC<2+!zBIV~%J.Ufrk!~SZPI[mA$8yCt6QngsH)^3z28
s;/[+2m,w<0)4s'8|[7,nJOhNBGxiFtPQq&UgWS&xJ',eTk>0!jzK+!9KGK!&nOLT.QkHg[:jD0sFsxXM]inD_~A,^V)K_Q3/LlB
P4.S2^?d`wif8&+s+pYg@*j,d&3/Zs94YXf57(3~sJp>G1/$U)Qq=@!WM_r@Wh9I:k;S+f~xzK+hNi!]DVlr$4[|v9.[pND@Sn/Y
LI[D15he(+%DP/JiGDJU)EWy1aR$L['zaDV&[tk$ic[@CQ<7oBu:hY:yHY&t]8&]/jKV_9[QS40J./]I$Q)kk,hL%hN_q'XYTQRS
2SAFc91w3]r8f=4ab0&R,C^XFxBC<4iFIQ3wb3zJ6D;AP`s)5rYs2*~C6Y,kqH&u<k<y87e.!MgU`bEhMd7Gm_gZnt~Ff`S^F3pO
pswX*8t8>yFD&ixC8bP,Yx/``U+=ATcN,Diz`e=|Q8[Dr~a=6A2H9K+IbvqzhR=4)UI3$Z!Y[_].EhBOaJwF~[At:.u6(OOcVCsv
P7N(Ne&APCTE>3_Ln/=2*N6Z0UC;u0BiTsk:viMWY%Ihp[BloqOqeGyB85(2,Mq?9wb=FG$C7:8d&s%v%snRNbu(ZUshNbEae50~
I3C;*a(VTfk@I|vN+a!7:`SKAw6A[:QCc4cAI[WF`[r?MHcTyoO_B/kueaf(CX6.a(zdjkjH2Pr1IMSA9CQq83CFF.XdjF|&o&*|
lBDO,Zn9h$]ad.*N_I[3$QtSK;o1RXi=3~@+QXPVqlnYf7tJT!b.q36xJS|f,`WGSQY|;D=X<(H3!4JRH~V5oj'|la(x0Kac3)QD
Mr~h]LAlBJKFqhrS+kh_I~!k0;d!/>zgkZxY$nKQ9~lQMlapEXycpo_AMOFx.N%u?O)dV;PBcY[7ntAQqvACvU86|YR|i?2%Qw`]
!y?WtgqLD2<6/|!*GS$WuSNgE'to'HFgX[A9GoDoij!z=,lI$z*(x/]Hnx*uf=MU>1Y%aO2?kxsv1'yjri9OGXHw<?]A>!_L$<C9
RhI`r]5c9nC6xd2N%XK(;VBX/$?m/d8|&rymfHVB@=&i~G9)3HrOm,2?6aO[nW`7~nw'x[i&C|J<l&?%X(J4/yAIe`:=KdO,k$JO
2xyM*hnyO9KV*j1gh%/V8,BOdC>?6axw,AGNGw^Kj=Uzc<Q76d:j>fMe4L3nvV==JMp~oZ(Ygl)G%?/oe(zgTWEZCd+ZKX1^'2|4
Z_z`AW??N=NNOpnb;ORY)9pNp@hm~/!H1.zmc*ok;fof<p]]NHGTFstSYt|]!A_A+>//Xch!+4iOdSimL!eVXLXz2`T!5`9ku8@x
*N1ydaujb>1qVR1Wn43]%,+wwOc~=vo0na&;~M/R:ZoPbEoa,JzkPE/@Ex(B51qjGo7T0wWO840OLHx^uF`F3PtESo=vX+[Vq;XX
27f]kpae(bwbQpBO=X@&4gO?3jwCfHDoj3|ZqNBp0C423vSwQGT*VP@,l!M=sN?F(!+7Th5+,Vr$q4Qy5UtRj`k))*1sjF5=83)|
[]sS0w*GVjmZ~kQKEnW0ByQwwMQucD&)yukXne(.uj|'akkq^5:6NJ*<QO.tdTG*Y:&f@noT_ZByh_hngv$n<(qtA+h$h&w=nj,_
hFNiicVd6=9jbo_R1:c8&>i+'lT,R0ui^@su1yNbW]];WZd'*%F,pEFr;dm6z9Z7+T&i7&xxGBDDA2^F9R_x6hdI)9CRFWqR0]0U
`G,Cl_yx/C@wG|Q=b/IDs]LpHl;DmlNUH'.!JUu8J<GyicdkYKW$5W2*@3$N1w5uRxRVXJM@r~;.F5OnM*+Q%XzBDiB<GS10Oi5_
Ly%r|p@~ML[hJ4qLvR=n!q([2`Ly)eL*u*f,P`nFKSJ>rm>@h0>qIqtI6'p_/PSj;xE*cV$L)w9r;1pnuy=wl6^rcBz8&jGK_f19
g85K.G'Pnw1S19fiXV5TnhD'Pq.oPQBx2sP/,g,;W~6%c[(azK!A_yED?03Y]kc;?h(NBaY%pnxK?jBmeRM3^iwtMW^EDm=%>1$^
<E>sT@`e)2]M0.89wuInvXx+&%dVK@!w?G%R:wA7P;'SXuO$iLbs=aBg=^;|sOOM4WnI636b.vctuo>`)Z!DTjXcE6VjF+^'bF&,
+?*m8AfTKoF='AIJ&`5Nqg^'OpyyCM!Bc%N//5emCCXF4&i0]HgJQ28LM_g.;_>4qmAwb8KUSSz8_JcyBUU]]LGfVXLFlWO??6G]
wwA0QcmG5&iMhzCy99~_g01?MYs!`GM$iqivW(py4zOHy=afCds4B(g6qsodEC9r<~!frTa,)UVgln0^;/5reJnCk87K1gQ^Me?E
;r=N/0;oC+)],@(6(06(GO&7_g^Ly2<z0iSO^?E<q&LVzE9HS78:P4R.sAN1=vidOehqxM$'!=I/QTDtZ<fWllcLu'+WtH't5f)t
XGkjnJ5vPGe*Hy|(4M@m5^g.HT;/D3!m_bPzRT|KY.W!U7@%mjK`sR%O6cXQY(>_C%|q.UUomQ3qhc&R(MC$b5E:_xaH[A*U*xMR
TE|&I*Ze_eX[H@Ar'vZYFDqc9*g&nK0?5wvE4LsP5[w4mMjJkVImlgJq?a.U7(+pz++YFJ>cBo.S2E8+PQQm:&+N'^aQoUp,<$D/
>=|Pl;HO)$!&&&'Yv5'APP!9/SxY6iC/36yeq?.Skg_aSHlHr=xSul<o>FC//WX(:uJ(u$Y4Bj7)WHADAOG/YDb<El;[&b6VO_t9
6_6M!?,/IUrDE?Ti>0;4%g:gw|T~2BXE<R?<)((RL$Y*AluhQ=L=X5bzipU`'QO+$>N'Z7f.1]u%z]l?QT8=^jUDi^9SB]$UE)4$
egTI$xe7^~x7yA8A&z_0_04BdIXMwUGaWO+t?_7F=h)'B|p&>lC!p(+R?IR:(]n3k/>;Jl+v9`2ihWTibk!2yn]tD?_*.7uWzop7
nZ.']DDhxM(1(i|s^zR[||hIG4^W2,WPmtY[bX/oWUN1tDbkO;mo&:d=+g`mStV6s`t+S32vV@l(3^%ghaM=>2XFb(|@@beR^*<M
tz~FIqPQo%3OMbF%Uf4O=^N~=ski`3!oQxqRGEsB8br'5_*X8DNp&E+tT'R`7!qu?~_gX$U,|=p|p[eH2PPCDQEP5flxX^M]84(c
L0EZ`]Zyqt5zhW_J|@Ex!qWo[?gNm[??28D`~/1Kym.f('m7BNsdig[Zph3BkN0f;8>nfVfJd)lL&_NPkb_$s)a]5Muv`2XlG3|'
(,4i+2m3Gq'hZ@,;*EfGmunMht!7L9rT9,L9QR.5h3K8|x)@uU>4C(o<xq1d6c$0gNV3rX+MWv+UU%h;AX[yStN0RiqupSSt5RwH
_P,sK0F8h>P>Z9cW>1|fadbzJ%s4@qVcX4hiK9Z4j|MtvJ);Pczo`Ko?<UiFUl<q:g2LM|]J]a_)*H@N_?/.A9s)8;`|R/)jRnpo
5FX|t~`HIb%Q=B/y%snO_!,D&M?bQEIvo'Bxl.&`i!~FvJ(xUI9?Cz<NLM`1@0OzT0/o1LnF=j(E__KUCjRXO0cjM|Sso)JP3['m
&|mNo;W@@i~5:Adi2QP|jP0%@OLy(i:uR^0Z~CYIBH~|c]Zd>B1,N8Ho/m]Ct*xfRk&`lYlHrUO|:TOTxY=I=ZULb9YkN5O[*EKl
gfwAza.Fdu68gf[K)*9sp<y~*IA.na;%4T*(EQVb&p$,+o;9OT%*F.6V>fu]$iU^qpsLK7YY?TQwO2UtA`AfO6tos,]?1~P:/kye
]A@gcNH<egnz+$1=v8Qzo5o&9[78k9qtOc%GYt.C]i)~N7]SLGJe^P?.i!y.kchSL$I7Nv_2K/4eyNq:~I&Ak^O,$;,l6NBwS+Xi
w*kp0r].Y56W)f=C/UoQ([mq,RJ8Qu;*Cj=kjq8t^j@<N,WY|Jj]ETy~ocL?ekv$!>2P)=3'nv|c=g@dkCy]CF[.?q7])[G=>D7v
GS3<D.._O__s.o4*skt.RT~&Z)73g0$pcKsfL'oID?b@u]+,ii)~|iL1d=b)x/cjLn/dxPp8s`913QnMSeuF;P$Y,%rv~H2Gh+yj
t]$2C;U_+cv+wZOdiF7*V]jH^>^(6xaby;yHt%=?eP9Rt|A3*zx5(zkw|!,OKkK&uCPqF`vdBQ&;MZ]w7B|BF.89_U9&cMU%U?cG
]C,|_OHlds=n>!FEVWVpmW1dme.@aCEF]L0U1~eC:sTo*/CZj@mZnY@;Ce`LrC3B1uw+8rIuZoYNKon/rm,/C!_M;1RH0FXM%8P/
_r!'CKfKnmo.!vzsG?&OCU972ESAzImX'>7;E(rnUHGnE?$!S/GMvDuvC,Gjb7spQelX<@h5sQ6)|IE.4pO8iXo8|+JdC*_r%Y55
Zvfmn$L$53/izgMR(vZ)fAA1>a`j~h/6<FJ`Vde=_M?TP:R2,$6~$zCB.8kD|]!vseMVQflF,@+`@9(uW:mp$PCLjMVuN)Cl^p69
$U$qChax.=4Y:;rTyr^ZIWn>vTGoqS,P_=K0D!7Ew6z8/aJIvBe;7.SLWI(,Dx`bgz)0YEAJz|y=/Tj+vCRoA7sQ=V:c6dJb*/&R
?dysyd^@DPNTKVnefeb@AP>/:[/ckgLY,jj=*tgI[P3g).$Ox^crlI|1<UIWP@.Gw'X`4^:|H,Fp0euXa@gZ*`R~e|Sbt&:Xiu:&
uvb(^0pvHFFWvqzUodn>$OjeGx`<f7$DHAR=S~EQTO?*,|,v);P3]AGnwBa3bYO:]i:<'o4X['w[^`![6GWGftWGWjH$ci`X0p6!
>F4awtL37Iy?Y]l6BT8@Z6&Y%n@x;!.$`:q!PQ/5SD?<~3sNNi~wUb)sPd$X<v=<6@@X&k7!`Z|G<$]>LK=zI=|mdTxDb+ycYc&p
``s[;TXM<5IWiz')wHwE2B$f($o?IP1xIN2IiKCfon9M)~?C/BHavoko>>bkHw&5:7~ZuHw7Op!TlHKSCxYy!SPyO|Rl[;BfB/19
=?Uh1W2Vdz*0:P%J6U?XOXRjaVcWxhF.dqwm&&@+XdzQEf;.Me2=B1SkHLo96SiU7.tT=_Cc88lfF%(_E!y7;o2tZ6[mN,4/(g;p
`V_J]Z)D~QoAZC0n(Jg>yfSOanqQ)hSxHk$U]HW*B<bgA~|D4c/IInYO~pHSH`9ipWCCf(L|i7)k`s=)$s8rcCNT4,qffcX)%AZe
5;zYK^Fo._O8a0zr!i=11,]l*'^AyT>ofk*ae&m92k~wcZgKCP`|hF)|'KUFV:l([3YP`Dn|7iYOh%VGY9i6/ez7@M5ZL/;iVnh,
b7H0mSlxgqZ]Qy4|Q@oT.6s*%'vKksc^0M:bkT*/adlTgA:^5y:f'+HlJt5yP3Ush*5q+!8x.=0%%VvS5C~eV&t_|T2<Mpuv.YAw
>z:aI&!OL<o%Oa0GCuS,|p^>>~jTor$fRMe.`6E5I&Wdh*~yp<s[k!DKwTo7ULrUMu%^*Cfn$d9rq_o@=3Mr`DJ7we<D3:L@rXv5
efM9!4~YwVQabfB'Urj'(~?94i(c/WF<Z,];!03%8Ujt|OFv7B:NT<+7]'[b*m$_JabGp12o2;e=.O>O_J)9w3]MTC1`jWJie461
AGXm>*M,wLwMAH_c'!n$,+^N3_gj9=[kqNNgK7FJ~7ZW>vWE$z?dj^xD|y3[CC2]_4$*q)l>v7>rCNSJQ|Xr0<;@fd&6Uf/OU%:'
fAusH/&//5_&`1M,4t_!;sKD$M'z~+Dmm5?Mx4`F1*@pCHtd)pW0[]TIgQb/0ewV/V4muP,0jM5b615Kmp+ohx0Ah2Cj,FQNgd9m
jsb'J')uGVQ,Po5%02WK5,SjDuS[*Y::]+lml2sFpGkMuU/QZy~!SQ5pj(^$+>Z)qh%[elNNmph8mVFnRW<X$cHM:vfPMTJcC9Bd
n8P<%9USXSgCg.XPV5f]FdG7K1BkO^hPv]ia+Fm(&Nb3y3/h=FCN3v/=Y:x2$CxRGO0$%/xr6jGiZ1&gR^7x/OTWY1R5o|/dJs;*
9:HvdrL|[Ib^i(n>&!%zK]$dUAq@sA&y_@vS,tgbI9I=S^Cpn@JDxjC1bwT^!)D~^r7tRh_H&6g'ZaxsI$Tly5=[QT[gVRb)m;di
bu.mZ/1!j,|BCL=Ug2$f%cvbkcJ_]'|P^5cP?y_>ZvAD4pzRa7>&M8Ea`')k/20p7*KUR=~pS+Fht~94[42gRQ>XvGJSLqP5=`up
3CexfCIOZC_Voa((`w&rT[@5BlaE1~fURO63$lB[?phOoqW*0);ag`DbRx/W|TR|]v47z.A*%:Q>[8t>CQd*8fx.4:rx(+IeRzPP
vR!lp'~Vi=GMy;99(mAFjFjiln%]2(CHzjF/1bxsR9`2E_lF|BbZP^3*f)TM:k~Rjzb)W~$XqSM%_AI%S!j@4.S2|uAyxQ!9USw|
/lRk&EB'A%>*Z7v63sO_P&&,%'BGGFp`+wa6j^nNsPj3]HW5f:L>]AWiQbzA8&Ws|Sn:y`R/dodpSrsiV:M5De|;AC[zrB|)eu2D
jR^,4)zvz62|G7R/G[/c4|+?3UmD`m%ah&S'0Vx(LeH%blRSTlJjxj$3JuPVAEjv|aeqDZaF.bu2*wNG&w?KyOzZG9YuomPAe^+m
;X,:d.whL'zv^]6@m?r41^kddY$S%T*F1(ONxl(m)8+~UlHX4kv$_$S+O!~yz@p/8+EBw^vI:D|)7Q%;Luepo<7Ckxx>@7=wR3JE
C(7i!dL6*!^vOpI&gr*4UUjO>.zMmFSUjFL[vju!u[ZTa`9(9D9s@$8a0fY*|9.FXs@J)l)6S7CUOyim&=56wBiE&JbP@l;r~|!1
5p7'f3LGb,|@Z$egu_3oFU=q?F*ME&QH8cKy^P(YXI]fWyKD0Do,3[R~K0.n+s$ZuN!+>w?$^bUX>(o,(XuT;wfR~rUZ_Jv(:p.g
!hI/?1;y`9D6dR9Q3|?e;=Ity5rUv>!`~zk/aq:`c72vCwmOE2Vr/^VKMT8&;Mh0Zg.wZ<JiM8&^%z5kmvO+chX$'IvUG,x:b1kv
_VA7;N|>]FpJxB`~hNgfs|aC_%.q'0'iM_Ey]+X<&&=HMS<awav+v]p'mYuI2f$S,_)EQnrQq)@xc]:PZu1`YFL:QMd8p;Jp9pBh
84M&G)w35Ic&YOog[yymVo&5j=,)6%Sv@r9H!Wzk!>$7O]myhKmX$WUQ_wgfjJbuLT>Kw`$F7L`WX(Zh/[Q57q6O@0@8[gY$O*<V
N&fucARMWg@W=js8')&F)mA;y1?1oe)tt5![.J5d:.r7<n]x6v*A%lQr+l3^@Hg.%UP@33,l67e5MUUV~9*ir<jF94J$.1g''YQg
[iJ*sEK|%(x:Xpx;|6Ej<2euTETuR,nZ[xt<fM_ejG7xK?Z+2E=4.oYoz/yDqbwo*_07U=8('nzm,9<0DP.wj7%,schR&qKE3;wD
Dr91nag|NpR3nA(t3HU@O!F|+~[i&fL@:.b7|(g^U[;)/myO/Dk<L[8H86@+U.'l&.5?@cM:G`.L~J@/^;e0K3~f*p5o*ZOh0meP
$swh@gTUvPBl0$uH.oMA7IfU4*U|O^3h]jVY9l$!WAogiKRGP2*Ea_l4:sT$eBLRBg*Asd=D?>0Y;oGG`RD]WO:x(F$Z.oEl(hw_
g<.ZG7Xnb3WU1Gfyt6zJ&v*|8ciUt_@s8Nmg>(ZsGm()Z97+d&YkUKD<vth@E$u;*@B8;RR>rixF+l?Nngx`W,LB&5*pH'ONeJ)7
m<(p7b~)&b8:?V3[/zNeuDh+>+?R/ekF<>vyHV[+2Htc$'v9y=a`itmfg%QTa?yrAOc=LXGq(CoP`fPVotnSB5Y`f&*~:1>qu[.K
7]nQRbk+l?@&5a]o62ynn96Hh0]9a<Mxu&j(=Szn%Cj*)5vv/__YVg8Od@0:O]~D;|:TQA3aSy|)FWpU:?x58Sy_kl9gILd6||jj
_JE;CK<)/wq]yK[;CJ^0cl/R='JaIfv/&d7`B3(,6ubLhPJ+Unnx!zB6&Tif|?^bv;cs?X(ms1fkxG@uVPRQ7]5T>a]0Ev;][h2<
@nM(=[S?77O>GVY>n~.kRk*PBqI@6%UO@mn*!0hA+Npox3vUx/QyMGC7dPQYUyPtJ~)yikR8mzGk`LFSS?8e4sYrQJ>*5MpUG1di
l$<W7T[U+xgm<WM'R.3*cl!+ZcWaCQJ7)KYe5vkBN1Umn`CXCshg3J5,G],qYbB>5n@q2<$8zPmlFS)ngP=*@bK`G]/[(w&@)614
AI]Me4FX@;i.Mu(0+uI0Fs]cS)tD%D]9$i3pewM:kOQNk*j5KD.tecpIkjzzGXqE9<mzYc|8AB5Y%i,QO0F,MHM7N.vy|q9cC+Dl
wmO=qV9]ve+K0>!~7bk:fs1i6+L4X(=%T1bw%|d9:b:plZ'$h@Cfq9E3H`WcXLc)TXS`H]JqRb~<.HW4~H/O@HE5mpszL,<G5%>&
&F:pWxm.$)4R))3NioWGEO<5M6v&<ffo7xGinYy.Rtufil!Dx8D,0hYS!UOvB;IO.moz!)HIlv3U6PpQN('1lgv$iODbQ^6g08P7
ND+ydu~+eJ%x3Y.`K*L(jx2IoG)B%^WZW>fXZzj&HKlZ@fQnkV_xU8^=1d=!||siOXCtuGiz6cSm/eF/X&0'Y6`0.QeO$8Bl|lmj
p(q^'G;,U?y0|Q6D:g?sw6m|R`'PlVFX=Jr.8B;)`rwKh%K`I=Cm9eDxJh4V$.uBEqew=P$w295ZWGY]$UgG1,smio^3k^/;=mE]
ug0ZS8qB_7eHT/+(+XDG8.k>2Cr~WvXj[w&VrR4sR.R@m!Ub2sD1!//WhQ0^N>$'`f&W|Al%96~0ux;k95;Z]kgq@hi+T~`%j|XC
,|IRAUNvvbYULa^f![58~fuh.o;v%k=p*X6OzY'RNU+UUFRO[ctVEOW~dY`!sc_qdhb]V[Oar5OmKXhDaPcjj$sUA3=j5&``[*,4
^+V66oU5J>laDdSp^QA^<c[$F7*FVxxJ:m0.X_%X=;_i]hM7VXL(Y%8%Zg;M=&0=Deedc)[B,;D[Pmlag([z0+l^t(:LCkkeZlg/
tWMz);$r$xM'=GE2Mkmio_kNk%rwqRcCh!W;)J8^)~FBp6!xq]Noeso4u):YngCn$PV0e.Igj!(n?Lc@~aL6FcR<'3z+XB<rzB!x
(o1aszz_RbAv*]rgP0NbNpIC?GMVYb7[/PxdH$3c;qkLNsCljn8HH4159!!R^Cdf?z7O&/$lTO,m.J,)2LjL?vATIJ0kxT^dB5%i
Id7qDuUJSQT_`l8/ahBw8V^K;rFCPJ;lDLYT>,O^5bs(KZEVeEQLV`6c8.wTMKDh9sx*l`!ck$&'DvpSi/[ihC!82skWCBh!j(J7
5ils~|DZ$A>no+n3`d+X5.nNfs>5Rv^s'[Pd1!Q=8J]jWx1cjm[m`&%ePC1=$i%>7|jipZ$S5@''3rou9?9+|DIqOtXP3IH*WoBh
s2F<M`MvM37eHm<L9BGcL+3SR112:.CrGe4S2wB+_^YZ;u;z)KA(8sR45L*M+I?^L0F&nG6V%]Lx65%gRqa>_O$U&%CvsnwP,fs~
^K%g9rL/arw5^_gG=|?f'%1W63R7IAV3W=`T2zaqzU9/!Xk$HYtRR^|y3qv=.SWt_^*pc[Z7RKSxQTR*<Q>n!!l=Q.2H;*[v$(LS
1mhHKJiRW4qH$]Mcq(BzJ?aL6$]VRnIdUZh<,u=BOVU!fp4_o)CP[<[Bhi)]<rj!yEp1V*9jPOj1Ho.!|':Spk3(%=RK6a<2;@$s
bi5vOcGu4lbAZ5_X<7!6W6%soOQP^>9IQm@kPU2P]Tex%zfF:N%)7<CUZW11I,*4bp1v:QPOc@'hU^HP*O&Aiu97/:~UjHs%mY'5
deLiERO*vrz^VMOVwf0b9=R;5+[n]~2.f=:MJ>e_?Oim/D4W7lv<VOnt/6B^+D~J(w1(?>.+_cI*Xd|Cg!`&m!pm$D!^kls.RYhg
Nk?1E@h3gRvNs8_[,)0K)@0Xg.784qxKNHIpU!=chCOZ`*Z|EUwlWp)hi:Z[Q`nMpxe+<Xqzg^UEz9e$kt^!j2/NALiGZcz.'l<o
2Us5c~8SG1fVfG@`eyQ31'tT.$NzyPCzfs)Vjun(mxuY.HKnbNI4LK2_J4IH/ExLjw:2fL3zoA$<ehxy|l)lU,d>UrmE|zC`+mq!
q!TVR1?L&wBB@4bUJDXBH^IZVdcyK]n`o1o?/]NB|H:X0zZ8g<mE&dSE1|40O`D>DBa1Ei$RuGQX.MEXfUwsI3b]`DphZklhuNm>
8rmIpLMn>uD3_`hQ,0?7eYp_jdc+9N!9q5=+VX8!QJq~(Qgc`w;r7]aFK?'Q%_Ou0&*2aH%89=sL@[ErM&N=+'.x&RjgsaSnE~mW
B)rMU(lc3toZrOW!:'>ZO2|NlV*xU~.(@jt6W/FMA%*>vT_WPzonYW*gYUWj/^oBcZDDe4v*pDgP/f)l>>B;S+77!S4;y~,f3>'w
Q*nl$pQE7q840uFHxHs@s)%gQjM6X<Q]t'Xov]FyL!1,L6pE6xg7rAF*L'IMOq=P:xb,H^z&g`d8Q&:B,f_Rq=|SQBEc&nlVY0+2
shm'~3O')_d/uq*:?gg~AS1Y;i4!0<1'jrYlCMO>f:;lJ|pgBDzN!4W4qK^unc%k!^aL02%`q:=Uk96|h/AKTdQ5ec,?f9I@bL5x
>HZ1LU`O1]Ro`~vbW*?EP,@8@D_z%gNMa`<Gmgvg'NqHSOf,=C]~cpp3rQF8^C=Ov(J|f(+ET~Lg)@e*r]O^xC>u,;PY>gUUO.)1
hrI&QLYsWsHr64rXmk[Gozx8MXDZx,?ma=yr?BV!wd[(+H._57H'YSJG2V(t=>2@i+Pdrhs|Z$L@Qji@j@I%cuiVRvmuVN~mhx='
KShqU8siY%7vOi2)rIE*Plzt;2=upT3:k,nCO(9!_d$C(>^6VQG8j@=jT_~thblZXgpFqjeFTS*iFy@M&+F%KNeT]+M`Ga~F7qEX
ukZS/%'whv!CQ0$F=t+QJWei4mKbLNv]QNIDj*|&^zlxHOgi;_YiQ.&+S&kO|P`o3xD?=E=e(D(>0(QMo3<fe@Aj|MbR:Z1rL&9=
p%oI=hDj3y3O=|P,&RDJMpRguc_?os&;p9KckdfQ~9I@teXI@Q1/(qvGQ.>ctl|!Ce0)YC5(a*|kBZm>sWZ1Fs6=Kp5(x$Gnic$~
j79sw<[bt7!cP_=XgqvbG8A[75)5e)5PLpA?s2a?==QFWSXdm=+|<Z`DQPJT*J2@h'5=k9hZMH,VwU*[N^D`!'_,Yzy1mm1l1'0c
m+Y$=qvxAQ^K~0FItQwA.34L,4b]VaP%D$U1fpeikWehV6:*r>]kiB929%PXQR/:(LqXCp,[w~.VZPPq*'Hn8:4<$~5uQnDiHuT@
];V1DyJWo>_?.q]C1szLzcNAWi<xxbSS9yO0~(t<5`ZGFJ+GUY]M6(I$UKpH=E8CDw(@=016yo&=)zVwOs&OpYSgS%q,MwLehN5B
p8Aa[p9w=l,CP!ij_^f.H]/m@gPw=]L~?xY&+%]VOq~D.'?m+?0LJd.@,<of.m*!J~2';9|iQz:3]&R3Ky`Wh7mjAb[e9`@VGZsV
NFFOVbT^@?rdt%;gtW%76[oF2)+b;1'DBYyNmKv*2&e7P[lv^!_4pQ2!Gm@xlW6d)0Smczlj2f)/N2QCV!~P~G7qCR5Znbbu*5.P
(t80D*UJ7U_9ol:_+nXvSm~J7b!MigGlP9PhHYf|vK;+mr/jwd+6+|?Tg^~R9xjQf/WX[o'a+D)4UumT)oS/n?(9$oEdS$2`39s*
2;nj+g_5]b~V5)tX9TXo!U)z^3iM_9Vgc%<=G*h!:8C=,;e&o<?G7k.u_nd~Q<%n`n=,,0q*;CWydqxW>P0*2`?6EWe@XC*~o@W*
KQ_hfGn.hjb.oF'>LejO,b2/L$$cl!g2QRz9D+SU@~6lw],rtZ!E2xhwDH05HCIYFW3'hCRY$VbdeK_mpeh<1<P_0]BK]54E;QI2
pTp,,E;dP~M;K?cS!fHL!qOf_t@s3f!zX3GYy^vaIv|t^,LKS9nm,p^i5J%otxhGjcR)Ore()Bh$;RKNAd5%dI9s8>_lOWC~mbr^
Ol3FFa[HZl~mEh9&k1n@JgNt(3F0W_pt>;cn=Fa_U6PO',R4crRt%A;bHP?M4BI&5oO&i7gP*kT8O1w;b7eEC3hjL')U^OV+d]$v
vyM|FUy^d*J)bT%HU<9/=N7aW^`y3_3U%hHxs>7V:U]cXq.d1BHT_3+FGG.0UV$g`&6g?aRfu4!:cU(_js9M(Y6C7vs/t:nxQ^Zt
ikna7T8^$WRaT|[hNdSrv.xWxaM=@bgcYBnFa.:k~7UTizc:BWovD(0MIt9M_i[4'4WmC*kmhptO*jm's0811cWy6t?:HU!_6VJ.
QHR:nyk7em2>N!w6TAY/VOT7Yrt<)x*VzAxx%nCu/M;Lg]!M5b4Ojqz9IJzGr&'[;%T@.*qb9&%i@m<:NB156)quaRRmrAx;:W45
iKhO'LIFkb+s0;~|0qe^Dmcd2psF^<|GZD(E/rJ2zC[&r*6UGW)jhZWf>FM@~:4;p&yc1CIo9$WCjv5*Cn7y@qA2(Cuwq`dc1PJT
&R7/+44zBWIabp0hq)L9aXNJ*mD9(R5!Yo$?g,kwimA>YtIBmq680T08(Sr8ub>3*WU/n<AhqoY>aSo|QueHKS@ZnQ'/*T/KGLY:
Pm.jU+|KEn2~sAG;xWlO4eo*&]FEt'c$pMAYK6^$G4*iaFF~/ZB~tb;.EiY18i]XAYd/Vc*D7(8YR.&=LC8;SkPVUbmc/hu?a@e|
`EU2Z!nG.ybne=9&z$DU/(RoyuMJzuFt~[Twh_+ng8$w?%SI`E_D@.<5dy7q7fD1<dUK?*2`WmDosB]CqJs8D]j.A3Z176a'hT4d
zTF@IBq;hUlKtGTgDH8fd7[t7F5DB4+BEBKZ(q8nH93z5sF&X<zVmKTK9_@Bn_pu*lpmHLv+14e&[QcV`N&u*k*|&T)6~SsbxEj.
]OzE^4UtH&(Jj7+=F@^B<,s>1!M]Z^uWdzD!u49Y2OMi<+6aPf,/@jNdAFRF(8l%;kdU9MGfG*s@B@Fb~;z?O,8ubHJN=MHG`w;t
<iQoJE0%hZ)_V`h5usuW(9At(MIQ3?K(imZPmJ&w2yMbjN~9+iCn3qT]x0I%i;k;P^iAfpn*aSm7j9lob)FHDZVRD2r)=E8qg4<f
o5|4LP9r.EL!?v43%j%HI3(!7,'Kf,3!jbNdx7+yCQ^h8GnGE+Lnj,4,Y&oPt^IDUW,%h)]+`I<clrU;Tp<iz13|:apz$zpAael[
9SbP0Ztv(>XQ^xLHN$ZD!V0xDA5fu4A~zXI`s&Qy$f!UJOv:D<VM%N%%n>j`[p|nng5'%x!*D%X7+CN]<?&|c/jyFda7o@(:1Lk<
/i`)mYtThrR33U4GtkzdLlP/e1..&K!K&bFY$=PfMfk?`J)JmmJEq92AD12R*sktN*h/Sk%R&0_FE^ZIwHe3.,thvB_q:/e~dLtR
cyUHjRRpci~g?&BWHlz^.D>EiKVfi@Z5el!V@lld(3~BCM%jhEt*W1?!/dUJ0ruu=Mw3.StfVUB]dA9h?E0InzL;o72.KqYb6eu]
aFc_lm5~+|NVWE$EMtI]EPNYAe89gwE,JW)!jH4vUY`U:dasJl/1,Ac=6K$M9QMI(H?<G](>O<`,umOy~Y_ot'D>+(HPz%C7E(iW
ySd?R4s?fZ0~za7z;gOqGZz2U<Q3Menukefr?C&5+|p$^)9tha%reAUmpY>0/%J<[emuv4&JEuc4<9h4'UEn1k~`3Eh3OiXtIo(b
AAO4P'VcHVn`yFWCJO)HdQE9K)~d3r3$4O~aIMq9kb5iFp$'J,)Pz%.o0(573%_f|wx@'l~313bn3)GHml<cfC@>!4mC?%cDe~sg
5s8'e/[%.A<HMxpM1IRk|q(3e?xpoC/b+qm24;Z`)?.t=XB%BX?$x9f4,1^3)+:C6bF`RtZAc854yylucNZb0c`pmsS]4oAF,GVU
eH,+~>;kA%Gk>UCE*FRH&yGomJu8>c3lwpeAd!1wgE2nW4_[W*Ps11x^4*+Cv~y;Foo::9+_[s%+c?m5;0BOp)pI;w6bTc0ucJs0
er*ONunk&D6dupa44^!8BMTZ'IaJ0hHeBAaIW1UU=l*E`OyCa?JhOR=Xa_;?AOG8ifA+zzE5sZwz@Z@6&T4`mWav&[`Qe2RWLAl[
5CRScP.2J>|TwhC_u0Vw2o7,/U2oKIN7,xwc|EsgZkpaJo;&jsdclmohF7[kGwk(5^Q@v@52OdCMq[5@anIen%K/&B(=762z'@,m
0$0mbaZ)`X5$+W5ue.w2G=`hClLM.LXR<J=ZVEKp^%yA9T:8iUI)a8,~G.$ZOYNH7,ce3xDB1`GI[pIJ3%|Oj.t.,>dh;@X%VG41
H)4;h<$>*:OYD4&>>x^Rg`~[9tb;^bE,n:^V>PPQN<7>],OjE5NA<|=?awd9FG3=`w;L5mAn0u&R7opWw_KX|ID$IEa1Br7q8HPS
0s:KSGBEqtbL)/MP@/s9y,U?,;VWd5rLZBS;.G,_SCbAJMjuS2&w@C!p4p.5r!28y;!PAyrcrP;0DW?L0e+Xg]dRL8umoVku28c&
E0,AKUapA6OueOD9qUr[19L;;o<D5u+&4`/G$,3C<ezEYqAL;6m7y|H[D>lV`m2]<c1$uCJ`w4dEu71Y1Y&kONLZ]N_K[8Epk:[$
%GA/0|r$)/hX2Rbp7KgC[/DJ0SfM5B16>llzS*6HBB?QKXeWJZU_~LO?SATh$.;BA!A[ozdfV468G2EeE_Ety:Xku$piyKakz|Tc
~_W4~LlO&?)h7rMSZV;.J*7ML8K&!8(97.8DY|F7Cl+X^@CHYE$mP!kXS0m&~7zZxfBDaA7=`afxkybxedL)klh0ZV%>htM0Psc~
@W|yZjT*wx9'jL=f028tM.|jG'i_&PpOQU|0+uN!4nZ*9K@2Bg8%h?/DEb3/B$^7v0sB2(ZjK]]OU=a'.~YWhB]%qNudKxW~x<TP
5AqI20`5[&TJThlRb^/I8RmfF'QUghxwxifdl2@rV&J64ksmRle<uP%]G_dlwZdbhArAm3Tqp+HXVpt^VZ<*e;X/4%$ugwrp^|To
y`E@N`riRvr3%/^rY`Bk%i|i9L9I'q?;5^JjkE!6lv^TY?uny>H,l6$p?kIfEHGG5nu]ZzX!1l,%>5Hw>:s`HPMlZm+]_*YVU^<M
CdDobVhqxR38'YB+u3*V57/fey[*`$JzxMYoYBUXvvcT;'dJ[?UG]&qKnuAL&FXLcrJ|lnk$&_X~RcKCr*x56!c=XV!6$`r,_IA]
DrRmIpB$ruGsDWZ11b*2;cUs:)?Ut>pC/lIpG+IXf1wY|z5ff3dEKJ92iZ!0[CEmL9teTgQEb:RQ~/+l6y.Yk;JiSOtWyQW=6<n8
;V*d_qM%_%s9yLF4Bw][VcLVjF5w<`4OFzvY]Y+I:%Ax!z0z7(XS@0lxRs/hd|UxRwEK_q7nF6b|2tNPo.5gS;!Zf`=,dPIYVSTA
e2n[oR>'W4!/QI+TU,=%5mtI<Shp<Y]].qg+hMX0eQZ'S`wuYb*I.Y5%Vd%bd|fMbHLyYp]Ien,a:Y:`VT44tr~@4SR7M)FK_u)(
b:_m4?'YTZTq`k;_$h4)bHT!g98%DVUggzq8At&/@2vw?;+aFIdN89*qq.:<9ratiZiLP+Vo)7g)9;2ki2gBUxWZwpcww'v>[|Sv
t5T~F853@v0JI6:Ji)_,:Pb0p9r$7_Gqf%[(!=LPUvb&3hoPKm%,/(.AQ2'w>YnHG_Tl!pZZik<A_|_wMqZ<&~o]j<ilud/Z`:E?
uwpnX8_WJs+/c]rz&&(+;=;Yhb?SA8bWK~Q&@a!TdloeX@g/YcdOHzmB53>wsA?Rav4m9pAMo&v~D$jorTD;9c4;6_Yinppp)i,|
9FnFd>AQ7[~.Gv/`9.?IvaR%DaE>`DiOT9DcR'KS38CLLgY3=AE.aR(jYec.l7@P^jZEZ2?DBJujOMwL]jkP0uldS9]XoD]+~~,?
1BvCCY0K,(Qb|Fh.T+YZ(H(kd)mtFt>Fw/%EtIAGhAoWZ_A1ihF$>C!jI9d4vkOSqTcol<pWGqJBC=%cB_)noL&>z?]P/|>Onm.I
q66%ma_BA5;uDKlLg5@82wGU.khKGF+IlD*0~m<]m4czB(Z24?[lfz+H!]MFY/dhKml;`mWT*Ww8a=?^q:hf=JwL+P>!j``l4^/&
j48psE=3W?E:)yiZU6_A&/VI0.I?sK+kAj18ShpM7|_ub)&y'$Awj[*3Re9;35EpY^hN8QJ),xAp~p98mQl1H*BGb3+`Fo(M@g7W
Qmhc0$x3=)I1Jrqm'u[ilh%F7F!+X$j$u0MT9jlDlRY!Tx*;SY&wv;qVE4Z~KCpn/E;XA0,mW!bU2!+146OQQI94(QEciFq28:~M
!/v9q.O_fGMY4t9zZX5*pN.?KHjaKM=^cG$p|4X^g(>Yu70CDh`D!_:fy5Zx.CAagw)K=yJx9QIJ*FMOa~$8*KehbWwMu(bB2yQC
Doh2XRuSByk~bRF6;>KSB0`'$okDLP]Da^7YP7nMr[L,sCg!6oDzON008FVTaJLtN&>2QNMTHXA%gJ7dwa1c81WMd<$'M?8[y[3u
B9g:JF=<r*FQeEXGc_v[F4n;26+z1k&&NG~;T|TlW).D~P==e@Y<$4ahz0/9t+avx=o0FgwlLGA>,UgOmx!B]PfH=ST9k06NaWjT
w'y@mXqv)]Cu*G9yIy<'B7XEr[uWbGjo!S.4Ptv0iFYqWWM`8.KZ,A?|ViWIzrfx@Kx(Fz+^3T^/S2!O@wMV0U>Ht,M~_zgv6`Yy
^bDj*9oU^$jEf&@Gl!vJw0hr0W?iTS=`e''[S?Sk1%fQa[l_J!D4Plc|fL$]n@^n%.wt~y!E3[Af&qvHLi(PD?<tu:*^<fET:Tvw
aVAgNwhTkN<),A+zvBtzz%|s|Kv?)JN8|T,PROc)w5dY,eQU:F1e/(`YoKZ9KfuT4>T)5Z@)1.vNg+W0HL$vV2oyH[d,SR&hIf5Q
t|z;9[>gji~>IU;a*A$F%)A%eYS&Q>K`PyT(wjT*gh2._gw3>b5aK,'qfC)Y,`KngXTToYl,(@lbx]|?@;'lR:2`l)*Zefs!tn1'
e!sh=J@:6pzwv>Nq6o$s?7_Hf@ISd!o:plBd9=)Z2j<HZfKh=aR9P6Ht7dk9Abr`w^u;;8xJ',7Sh@DTGW7wL*lF26H(q=)i,%f&
qFl'q&.Ha!)p4dIvR'tsxh%!>~,M93+mA]Wi[~(k3e%q)j2PlTt!XQZ)vaZEB~z0MIzUrrQGx4,WMG|A/yO/n%V@+q/&Vx<=]<f,
J:L@u.z!awtDd0yRTLlg:O3,o?aa<0fPV4i*]FGn<N^xU0uF7>|jY~&U&RE%vzVi7EUNu]Ll>;?/ru@T~Ax1Oo6WXWv3L0JvKaKi
47QqyBgnQy7u>q7b6++'MinnGQ~S30bS6Ny<?)HgMCuxbc*5)RaPoe^>NF_@*;]/aBc)JRtZy4?O+[hO:0Y_o*Q!TK7s/<z7ae]n
~kB7!NyGib)UH(lZJ[J6T%@3DB2bC>M1*PHDr4+/T?d3&@4bMM*3=_R~Th+0VynZDJx9CoND(Z~gl[_6MM[[hz?ta+rqY`AR(f@f
8n&7EE3'k4fe`9k7rVwkvX!h(:~l%Z!v?/Ty48hwJ8FQ1/&n>0J0CYH7bi<N46Q.TQ>](kjZD/ztnk&,ey=j,f@9~&yw4wTx=J=k
tEO,L_&[To[>S2j`dB|8H*4jHPlV|HyxOil)@Uu4E/,Z/$im&/A<7%wL3Ye?l=iuQt)clp=!n%SsRH?!8F0=.3/3d0hVlK;a>N!n
oeX`m~F1Gsa=c[+IsKtOcPM&X(xgU5YYpAR5=05QrrW=_vctES<uHh8fv^/UMY6%0g`7@9io%JkO`nEj'gRxS8,k_s:JK*Ka~p0=
P;Kvxi^MnfKw,ln0Dj:7KXH!:w!>tL.JD2oNj_fKR%lg0+1PcAbO;ox|z;psSqCkgeuG7LZb7J,Qh8U)W^cs>8cNb5l'6SNGXYdD
N13sW:VHpFFF=4$vaik9Fbc*aDCMyB/V8QjW)Y,U/%qSWf'aSvNUYT@Nn6CK~Qf'x_1)Tu_U!@H*<y=jRU(k^y@tYqi5%0Ol_4lX
nj@Ei,@:o8b)NrGc8hXsnH|,yEX!)=(56MsL(rz$E+d;E27,a2,~G8`_muMSWXT<Q:?;ZW94?:=j>T^@Q5aLWu0e4R[@x|N;OE%:
SuVqnG3i|@<loA~=_=Dqa+a[MNIn1rnTC0E=eM8/TT0g[B@':NNV7QY*:UEUsHDf4@H_J*rRlf>v2+mC6NwgyDAmttjr<tK:;G<m
EFD<i2K!p;_S$U%wS2q5<IVpNd/.[uCK>$+clhRS>vI9V777$S?/RPu)q!^6!/Y|!R|Jld3&?IAL<me^8r[~|qy6BttG5UvLGI<z
4]EeK?g81(&IxQm_y5WK1Q:s&7N5[foMOlHeiv[`G/=_v6.$e]2Y:,BR^5?dh'5$zJ$`mS=Ep<ir)R/zj*gwyOaDBI!sm!Zwt'o1
lkNh~TP_8.Oic1NR<Dx'R(a.iII~X6v3U<EY8uIh`7[2?<=gRYyx</N4qYbI|Ex(u9l2(tvMrB`o*sq7[+<;95p;c%A'PcnsKE=9
0d98Rz+RX*$DuJd3Gs:)zLKr'BTvefN`tTz&62$>cB);MoD@r$DMIBk.uARQgfx&?>iIE^RXpMx^LU2l*Kc/'6RY5@!kuswjtYw+
42KtX]cSz!L'8E2DV@|SfgoWH,kTZlhj6yri'a)mYUP)NHx/9:XP9ni491^eKQY8B(I!dWxK~=v?|Cq2O&$aG*q.YOYGhj&M~mCo
wh':>h5:Xx<5.$eCL'raGH~gBO%:YbLKKZK+)h0BC7OS*p45Hp|aTUn';G'Q)+*8t3^[b?kutzC%KCLtYlCe.D[pLTM$anr!Sp0S
>]cq%s)yPaHs>PLXwr|OzU*6;ZbS9G<Dp>]]Pw&0Po@qGU+ROC_:y|D`0iq>?oz:G6hKlFF!X|kTAcdXH~3BHg(H9yX(|6NYBq'q
Q+)>Cn_f.4dS?5M0HjCa5NM/XS[Mm$8e[='de838AV23I^F!*l6Hj(9dxu;ytMC'px+35vC=b,p4i6]B~Xyv/*g)9FyznyyD=|e+
$hV|w?'0,PNvI|&N8*1Dn)ein9i1L:DZ[o5ga3@gTjWX5<zI9s~eC6~u?B5pN;u^Fe,)Iz^BhtzxE3/z,G|W5ean+I3'qy=T8&Nb
;g,tB(*z3'q/g<ir1'EBpRVGqZ`KxE7/k_qK`AOnjY2?3h1%,093rL6.jLS790Uol2nKnU@LMJ9;t/F!<WywhfF8&;H!R<i&GsEw
?`[R&ki+~k3wh1Cz1AYap?z%B>bMFJ0lPPr'&'h_<>=Lbt_8EuvJ%:[Z!&Z):O<fAT~R'_f't*d^D':>I*fOrVBz1A>m%v0`z~1/
zgj'$h+XG8v$]5ZbGZy!UcXtJjK>^Pgwqh0V0,=NT|qt')%=B1PK.8i<JC|&6$fBTDl8EeRSByY*eZXc'Vb$o;D.OJniTI2iOf<0
:)R:8^gQxdxcY;Ly^,4!Zf|Z4;q&Z!TzHzq3B.W,Y]dp(~/a;L^KG^/06.JqCWb;K2gZ2!4g2'`2Oc]JOOJ=&eBRU?5<n+6z.3dw
Qvs;IL&39~a7I@=E;L+'?R;6)^M<=%yIFxbDF~l%0Z/J7r$6~5nD2lCRc!t*5j</xYu;EFSVlK!fBgr|bcvB78i@0;h$?Da*nk(!
uk]7P7[iwh;QvG@rJy=Sy|XH@2:2gV4o2gf1;XJ3JO(rDAF(ImCz7iP~qVj;8*Ju1R|b?2GcXyMnzE2q4?hAA2+0@')m>HV2/vt.
5_d(m42zMik9QVntF_rvgXbPg>B@Wt]pFo&=t]%5XYETyn[L;_rTb1rYJ`0:/7UzCX>O]eJ~R5>i&LcdiP)?$^GnC]L^?.E0,2SE
JUX]sS(v46|6Biao/LuSok7OczXVuB2A[Axh2|jp!EoCXjX1V?afbf+XCoV80=y@:OPb$U;AK!4W5~+^v_@trOEZ(2QnTY<tmMaq
f3=z,x%vK9@SR,3ViLstPKbwRn69Mn:~@?yHTl6)u0?>j_bOW,q]$J6!H!SqZ.zQuKYZx|elTo4N[JmRiT>/*0d88z'T(7B]7R8h
Kl?Cx&tXo>V$$_W;'fQm8c%bbEr1Ic'~ksF3H<??K7*W?3yHj8|>Z]jf%M!%%B1BL0LT7aVDRz&H)ufq=zGp:+_'4tgdy^?>*1zc
POw~~%Qe.D~w)ZG6Di43gx$3.Z%iV|xQjxJb=>pp56o7$Z!*%tN+Z.T=FT=$Ilgzj+A)(z`c_D;|Dv@3VL'%)e]2|_&CLkcbNOio
3o7V*r3u*R*^'nHCRhMOhbZpA:&=)%<f$Sz'_iCJc^d*>foDjZ~*m/hOCfy%$ktFgJtOx^uwic8QPU8l[_nM3A!qMvC?1Rbny7dX
>G_u_8Az!jBjq&I5$:iW~FMfoHB?vR'0J.;0JUKZDuSU.GNUC+.lwbz2(C6)bi|D0$=CB+NIq7H_n=*~sd%7W&g4)=h'On|@a](=
)KO6Ugg74=HQcBgHtX|%6MAR(YNOO=vKIlJv?;t~YB3?.o5x>WT=W^*Z^4f7V,I+Z_7D[L9JV2GV,wql._o5MMu;p0ru6>x_~6b<
ZkppU6=?ISlIpK$`0wdv=sFZ]CY[R!jbWkPZ(a;y0SFI[XbFGJ'r1]q^Eq=[Lw,KKP1Gkf@p~~E?0:NK|Men*TJw%Fz5<)Zjrm!g
d5_P`<bM%OdB^Zj^KmNoMx7&/|TE)^h&~$[;&fdrLAk*t~hB>rqtBgy.@h!P(H6WDtrrOh4ZFNB0XMeVZY5XFC&zKi<SbF5<ozo&
U.z*3ppkXw<T_b!+wJdb3W2d<UizX&?iv/sj>|mZMI5mPgCTSFso$g)HHcE'wrDKUgr2k7UR/L9saAzpXJ|QA8(0b@myJ`KX[qDC
F+|)$4Eoac5esl[b?<~40xvqsa't(mB'qEfw^vj;550L&|^REL4FI~xRHvDN|XkQV6r)^Js&JN/.AG1&At~J)Jb*FS|/lHMuWdVq
(p|>vzmCA)z)Lg1xP%bxoXsApNwDzH]/D;=5mAF(r4nL=cX~&Nfd,03Gb1[[U5@2<.8l8?6cmuibwsDesty0mBR!cu5&Jl6lzw`l
M'qTXhP2Pe.[dMmN[@$0:ig%Nb^bcl..?1]BdAQcjWLZF2^it@i6[g3mE)3s%^Eo&1iQjmY[NY|G]:0hA),S`.CqPLEALa~'GRMp
1y[JGZ5fIn?y7tnP9;Z_9x_?E<C]NJ4i(eH.VhAvX.$j[()Zz8kFMTB=Z:g9$Eh*mHH2E)5Gic,C`EGN*P/v(?xo;v<xl5xJ16Y%
q)^gfUsNLq*g]Q|6<ndE>/M$:3P*yGsz8f=p(BNS<!39ojGEl7A:oN$S7+^)$EZZ7Ymo8WHI_jJ.]YOtG)anx$mDdEGqY:BmoLMx
y&I;xPLbMbUZe@~5k.|RNXl8'uP;!GaBUC|v,E(jSY4?Ws9Q][:eQu8s[IzGGHS?9Uw.~<8*x9M!eU&FSwLMaU=[3Ltw)h7,a6dg
Fmg4S<)J,fz@s>dq:/.oOlsx:WRV%h1c1pu|'eYV6;82yxX^<?,ncTSJ%dUIzR=Jmn+l$56vyatNMH^9Px*$Ig$_xA5I5SI,piXP
+z_?BKio_e&V`5KK*aN:xCTbP+8OR!=!55w3o'+Ru^gE:y?oE&M0z2(Z,Ef)fUZZRRb||dIvcQA~|])eNVjCK<`>7=Ps:ByAG8q:
:0vFp;|dAav'D:]l|ol?cBLOP&xDFIj+?/H]h2o^l/4LGT1A~EAit'ME/e4'QEVf3`AT;7M/iz.3^!RR]Zp5KAeM=wq9sS!s~3]S
>I[/n].::%zk/dB@^'hYN5>,$(i4,yI%x`_^VYL:6_KlUZNHE4SM3gM!>Ww!?w031HcBTA]3N%i>_X4'7:PdB1d?&RXzt_;?c'rF
cZFupRBqtIEEew72Gn=w6_LoU]IBC5f2bp[h594fuF%LfxW&2sjg5d.HeeGD3>wtT.[f4CMUI4_(*>cjgmWAFQh=!qNC,!%nW3U|
68.2Y9U?Gsv[0]]~a0[$c067:fm_fwANs@tkay`t)LQ6k5]7X^,>_u[&LKDM!`k$|ZgoWJp6y3cYP~Lbwc>aR.?iGpar@^'JC0[X
;%H^fyABX=Lb.hH,c5J(o'Ur/TgW6[V&5cS!yhUa[S9evx1[PXVnb1uZ=l1T's[.)=,FCZN_M1ht_i)%CpypiB,G.nH[O`~A~RcK
IAt>FPu,i=b*UY6yES)EhwonEnmoYZd4c+wJ&EbmQOU(kqXtWoG.3*_a4HP:2%<Q(>%(Rnc=qAd%poM$Bo<NYo_,'+T,[Ul]=sQ^
5T&X7`zmxP=;r)^`$gG;^PaA>VBWtE'r&]EKLi)FF?Vn~;m98@*AI,N/=Rhci5m|M5REE1^Aw_SMr6,fHd>G'iE&o7kvMukDW0)~
U)n?7DW7VI?2e^2$oF8U8ci<5r'2VTGww6N,iqL$yJ9|;z%lkEk2~JYriV7$USh'7iSe19vg4fWKVwm$>k+!OAgz_|9|Ey|6Nrac
a,^cmp|QBq*y`9@.=pfOq42u@]6HsC_dG>l$Xr3/<r!$/`75*W.h4u<UG=.(%ZA2k:a!5c9u=Y(J.0ULE+u*rL2XzH*`q@`*KPEG
Lhd:;gej+O?tn.yDBEq!V*yBHV~Z*OPc&3C+Q045%.)!C)JZ`yjw&PLQqXL[pN]ls_;,9/~|CoY)3v'%`D5PJbe=UvWLrvR<<^kS
.Rg17m_+aEaa_66;%@Aht><TCoB<BI_$KvJ4VFWZ8D:'RXDC<ev+%1.,Uqeo.lIEL1^a~9v7&?nIUt&y&C5wFqHp7uTe+4,W&PGx
;4pjU$go8Tkvj2kU87|2ukXUxsH%/(D0%/zhtS='~2T1:R:a/88s!2wp+Qp4INM56w':n6]>/@,+seqekYHk+k6r|/b9]D|HaWee
mHako=XO*uo,)jtv<N4VVt[0vqBha)*0)D7y~_.4>c8$xd1w'R!7yB.j|b5e@VG5/YVd;=W9>_8p&R`>[8lCQaM8geV=XRkg;F9?
r+'@Bry)lgzvD]sdZ5`%wbZ=$bgcB%gF$S/3Tht^>]H'6:l/?'Sd=Nei)B4tN:;c:`O'ZV''gPsnq[bpuL!rB.GO)j(8`?6(Ns,_
,`?v00J28rTt7m4j,BK1NcZ$j0OAQ4fcYHl>%4AJGw+h5k<1,etrhJE;ff>TcZ*hs/1~e^qLfv1;`L1Lh&@n34kd5RV*ox^2)?83
xF,yWf,;.7B_24~=o6^Ox|F21Si]B5Ge3ES8AK2mi(q:DGNiV9:$gG6GS,hX5&Ky:dcuTw2,8*,C5J&MRJxuGdKa|1fvJ)QQAwLA
'G/I*Imo6d/Jq[N8&JnPl20wt7D60q`PGco*['vvW0U(HOvuJmP>jzSgACO3iM*S/Q+cU^Ac&5xiy9ysjf7`A>%ifEl_Ho`1kglz
IEV+KPEiYCOpZ<+RT17qo+o1mkqKwTJd.pr|^=wmk.=8CIChD7H,m2pa%'`:YLG>i.!4!YBoec+>BTB`xJt`)@5=Dr3krw`)nPa]
G>lCBhc&2l)PC`76|8sdtoLu,Rc1+6'~1`NI:vv?On.NW+@8/tO8z'Y]*|.oge(G6,3nkahxA.5U/Mc0Zv69]ENJW1Em+L1c=JV~
H(Y/?db*C`P:NC+8sab*eS|/o@WRPCcoQW3tzn>S4F)g^diCO0vHT(N<OGRlk==0d%4m|+lc21u'MHWg]+=n+,+_s~@03*xjVSj;
>q~kgcV1ucVixk0qcuh?RbWfLe)(C~[jElxL3'YFs,<svv~iT%x3j)()tF$['rsQuR5K.i;XEl(mS+;,Qbq$69YvT/nJ&k*@6bAU
QXU$WNP4]<)>eoGs*L2;7;_$aTRIQ%x(u)?7yW@p6[7yMQJ0Y='n|edHUWR?RWX[,w7,)LGI;_3Fr.]+)En:dYfyZouK,0nqs+9)
Zr;_A&1w(Q1TCADq>,Cu_?TKl%ZRJf0.|P6XCR.&b7h^&z[(0<M1c?9Gi+dn~p;&JX&kuj1,Oku$BM5,F_rY4'$L|+Ls%IN!'YtB
lH$p$0n&SNNuigHM,Do3Uo:H];)0MG9,8u~s%erg[5B=vnb.U21(BB'`:g6ay[q=MZkCAW]m<3k4[xYHj@^]>avD@>W(z5~u<o%_
j*U5JtWZzv<ec>D2.:cz9ckh2Qg84gM,F/&/yVLP?l(M:>pzT?b6,AYEw.rNTPncj|tN'hS)jtm)+E)N=[x6;1JvcT~$R]Cssl4[
>,wcK09v4tcwRf&`fFQtk6J4?ZP;Xqs`4g]sK$:61O>3h_h*3^C_IaNnmh[[dB9G_RiY_RH7La|AA%j%+lMb'YC3_?5QqYEslBMG
&63?wW+D,zHm9c]e,~aZeQDl=anA7&;<CM:=;DSyD(rR^YGgbY.9QKClL9OMJ%LtyB&jp4^tq~griGES2>aTrSx)Hk5@%:;XAeS8
;)3@f2q/N~$azjDz;g,*DiLp_:H;k=tcHxg/EZVL?.1=WXq<$HJhEgIoZpDph^ZK904;r9U*jE;4gp4w]fbb['*x41KR'f1Lz~^o
ffa@.5q<=g+>m4/Y1eiT/xpTpyyHTA%Kob3Z`%JT!*obM98dy80s6[i&.*Z2rX8HSJwMB.M$W+[d15ugA5h[o%m?U[x.=Pg9zpQh
t~eXVY($P458?$>cDt?JAhr'*7obMKX_l7ynJFTJho0o=|c5e^<mT^*yuy5'w+iWz[Af=oZz%oXBRR!6qd?Jh?YmUei6S?^o;7bE
deFYdFW4@Z=n58AYS3pHU(U/TS;f]bWc+Xa(?I+Gyy8@_BsxHTjM4|M<kkV&fU2o*6`]AYf8r^/0!v4@'q]:QLAa:a),$,fz~61@
VN0DnQS0kFLC$83C[,^f2g|?JKdg/ye*E1hF@wJzuf>UU([R^YGk@HKGW1pV3'4c(4j(XuL[YKJzYS]Z7y/<?pDxIYXEaS=cd2>U
8(/Z(RQYv0klv3~XWR'@UdE)xk_*6x/L9oA[TA9B@+1k',n<=Rf.QZ6W@D=SDkE~q@U[Bc7D<X`M>oa%_N0%E$eEXk62JJhi0^Qn
c*Bl2J?CYBIOF:2m>3Y]d_ZM1|P]g:4m`tOs=>?7S+]w%$V]E=0Se;Nk%N;MW2USf|B[NST0YE)?FhNm>&D~*FpEZ/HJYb'%F./g
>5?w=J~zR5*r,v(ypTI2Z5`<XgN7v4tmL8fug@DyWIsT;~p0`[f5[j`u*2TgISr[?C4U@;[=J0&lCKZ>a|Kau2h1^Yr|+(BE~K2?
asaTp20;<H9&XkA]c[n+rZ`?(>'z`w2U+nhBh*U'$u*AZ;Px5wEFd.A$Dx?aZ<wX1c.&0k+NWv8eE?kaHD@PE;6$Hl&*@4u|gJ;5
7WtsZ<URbJ1spJ(6>R0K^Am__R=]&rQw=s8Er|<0,Q=;/8cg5s|8$aF[ON~&'M.IB>]c<Z3.|X=g/89G62JN*wjKkDb/q5DXJ40N
>W%e+h2MQ@V`UFHO;h5^Q@EVwJloP4/pMZRv^yS[vq'auEPb;`>,4WY2g.LxG!GDgq`n'D[ou21$P^>:w4+d5MAOGfS~mPB5_OnA
~l^7.~Wa.iCh,Kctu`3[s+BtK%uzlX5PG/tc2l<BGSBQ3jnuf+4th)HzH[8_D9]_~;=h1,~h~GFskfD<(]+0/n<bzk|Ssw%|MVR<
I%%BnE2%$8Q<Z~9ED|nN,)c'hC%M63)UxyLa8R=&1z/]n*;@V+|aa$d;Kih39PPm9vFuC(5`+*b6yvN4nu'*%aLm^.AuG_(E^Jn,
vjUt[9gd;;3jJ<r5/f;oe%Sl^F*<Ff@6WqSBy[5D!:wOfu6c8^@~!D%5wG/!J>/~FI?w+`l:/9UdzQFc6QjiPjV~xt/%%T/P3xQ_
_'oM;G4iV]k!JUfD3G%$hI/5D*9;=4Xo7!_Qbqd]]Nr+6iu/+3++ls2|o^|Pn^[,N]v*o72^&SxVJYzA.iB*Q]V/)WaTK5@Nsl(&
`iq@Z0J~KITk1@wg9.nU+LM9^K,U&$X]z@JkHxTJ;g9oQ%Amtb8^:$URSasaSg9iO8E[3,FmQ]KdFhQT6!BvJ?.z2*bCN&tNEfv1
sQm=POh6SOZ`cUG>*CQU'm,NP<`EC8KGvG^wx!(KeW$oXu'JlIyTX^]jHh]SR?so.V=Hmqblv(w?GJ$rmDK(QV'sGk]I~Jh8/%O<
6Oh=)8kPv[wv^hWi1g[bB3M!ayS0CmuJ[MHACXX1c8,A5U?[k+X5.0O]rjxv4@/ZZ7@_m|A7z'<$H6T:*oPw9'ufo$`E~(36XTE@
dV9|Qm>*]G>PjDU>a>^]iDA;.0XDIHt%obY?~FE'*!VJTGdPCv_4Mwt|AH3RE/sFO;7ef)q^]Vll:'sQr;.b`9'trJ*V5n1wg1G$
;Cg|d[7NZQR8^Yen3/H[gL;y.=<i;Up2$x&s/U[4ABif^;BXs/,&W&KRJ>5Umio+!g6km49S'HR0>L$6%TeU>1M(N?$;acGfbehq
8)/HWa!..AZRB|`SxBvTmBljif'N@qL1p(7~F5m;x>dp]w^:,:B2&u03rY='Ihc]R9<!.q1gBXofP4WKF+?CW2|v>q636=UW@tQw
dCk*m9F>W2lDi>i+@<pwFP2P9SmnWV"⟩

end SmellLint.Text
