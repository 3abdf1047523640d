import ApiContract.Unicode.Runs

/-!
Binary properties of code points, as in Unicode 16. A text holds, run by run, the distance from the
last run and the length.
-/

namespace ApiContract.Unicode

def asciiHexDigitText : List String :=
  ["m1A76Q6"]

def alphabeticText : List String :=
  ["X2Q6Ql11A1415N1V1gE4CE57111s21g151224116113111K1p21h48c51c1216f1d1E111212118R44TB5u117Ec3184843A",
  "321Gm1Db3OX192415O2JJP7B5O16Hg1AC376i21G134FDJ18222M17113438222211814215C2A14316422M171212124542",
  "22417411H6B319131M17121539131231F4L44318222M171215382222924215D1G216331432111232333C4533133161e1",
  "D131N1G38131382132124S418131N1A15381313826214D3CD131f1281313115475M6131I3O191127861118I2Dw15761p",
  "1211151O111J13251161E4W11_181a14J4G1a1Z2t11125GW2A42c111512h11jA142711142f1142X1142711142F1v1142",
  "Z2b1GGs2263iJ2H1Q5h23B7KBLCKCD1312Cq12JE141Z2v27h15c2AV1C49NU25Bi14Qs1S4_12Ko11N2B3n1q11F18p1g12",
  "4Ai11BEt1M3Aa12B5h123f141612315W6d1EBs8262c126281111111V2r11711331734264D5317q31D1GDb31412A11356",
  "11111141B245541Hf1jPq1su1b76432Cc111512u171GN97171717171717171W1l11rE3P975254s2631w2145h11.2HW1m",
  "1GWGWk6W2jqLZ2k12j83GA2Kl1583n3d192d32Z2221118LK1X1Oq1Ca211i163113AX15Z1DT3p11CF1GGA51t19EIN3b21",
  "111O32G24B6262697171h11E6x3LazACN4n1ae8kB2g3c17C55C1D151112121i3X1hBIW22s1e1Cq351d4a1Q6QBv236262",
  "623Z1C1Q1J121F2EY1x3b2r1h8T3n1l1W1DU5h15U2a14815g1.4Ia14a14e18q1CB1F17121B1F17123q1Ct99MA8O61g11",
  "9b26211i112312NAN9VX2J12AMAQc2u162W241258131Tg1T3TZ181SRs1AMAJDIk3f2t1p1Dp1De1Y1S315Nw7g11232G3x",
  "1TA18Mg1Ik1LRN9c2h15Av191DPNp1H48Z1319W21492A111Z1I1Y12164.1711141F1A7v1N418222M1712153822223161",
  "57SA11211c11A112114123111D2TY21314K3UY22211u5s127P6Y1_11131x1s121d2R2EL7v5v1d3W2V82128121U122224",
  "z282k1261112Rp12AHe251If2d6X1V91j11711n1U2M1Ef27121i13112131122O6121b1121411dAN9H1f133l31l2wSc3l",
  "3Ha6io2X3FmX1H6Pxy35dIvr6l1ns1vH7VHl2HUIm1G4VL5JmDj1p6W2W4h24v17HW2211C2Eu_58sc1f1Adt8417121Z9F1",
  "T321E48iCae2h35D397A41Xx5r21d2122122241C11171X21428171S141511371qA2P1P1V1P1V1P1V1P1V1P18qv1V66r6",
  "71H2712155.1X11m3j1A7G1XAUIi1aFSa7X1lF714121F1b6x1a23131qb141R1211211A14111161411111131211211111",
  "1111121124171414111A1H53151HqJQ6Q6Qsp3Wtf1W1wX46.62Yq5Enf7FkJYj2.GYl1hw45WZ4"]

def bidiControlText : List String :=
  ["ym11nl62Q5t14"]

def bidiMirroredText : List String :=
  ["e12I111S111T111j11F1.p34zw12yi22A2s12E2n51W643631323414111149511I549211182V2451922J5295224O2G84K",
  "272zX1Eg2124121354533EpCM261E817631451225411322A622CJ14211121145263O2B24412224h1281e151113553413",
  "511W81ZG43212E22Ah18hDA28znp1652Y52I111S111T1111212txr11v11v11v11v11"]

def caseIgnorableText : List String :=
  ["d1161B1Z1111d2141114122tFW642419211x77l6151n1j111121211i11B6AB11Z11ALG1b381A14X1111URx2Bw1B4121O",
  "Oh13i117259f1w1t1111484137A2D1F1w114481K2Q122v1142422331U231B2v11451241K2M611w1121148172B2U1z11C",
  "1o1131t1113531472B2T1w11216152K2S2v124481K2T1e217311w2127B9Y31299117f22R11111t1E15125B1a191c3416",
  "1222P243G4D12261F1.21WJ3oT3T2U2U2W2217812B3151j15p11X22Y11s33429163x6221w11171111286A21d118Vn14m",
  "11151151e19C2W142213u11123113w1822W26o231D17416132o1_1D1Y1b3zD113B3D3D3D2C582A12125n151A11D1GDp1",
  "X1hy22n33z31F1W3W1l11rE1a143551z26z23suR1Yd16k81Y341A11S4m22EY1k21N3d3332813141P251t42QID1c18PBk",
  "13m112422H1L2Y262222C181Z11B1p1113225211R1E25211a3593v312141mvJ1p4HzHG31CGY1121f517161B1Z1111l11",
  "j12Z21L3XG1Y71r45bW161g119cI31254e1341b52zH4c11Q511x92l24c2Bn14x31s1Ff1122A3n14222141A1o13a1518.",
  "11C2q19A421_2321126121z4138L2v1231b1735c26D11111E2r282311N1q26114212k746212R2r282112g31112611b33",
  "2415Z8912W821141m442241W1Ae1624819623k1D12sC71611o2M271212w3631121711e223111xA2B2q155111N1rc5H6F",
  "ecBC33Wk25x1794yF3e12YF1_1HW2212hWG41712.a3214yo4k12NWH39G27U4q43xz1t14o181E1M51Fmg171H2712155.1",
  "X11W5EmB1z14xF5.72WN7j38lr25XWZO1UW3W4m7"]

def casedText : List String :=
  ["X2Q6Ql11A1415N1V1Z6144m61a172U5W31g142224116113111K1p21h48c51c19f1tu2c111512h114WLs226Ya2B5h123W",
  "2W6W2s8262c126281111111V2r11711331734264D5317q31D1GDb31412A1135611111141641245541HW132nPq1su1b76",
  "432Cc11151oeUk1IUa4c3341.1221118L513rPh11E6m2WwJ7C5fW1Q6Qbb1m2W3a14a1q3B1F17121B1F1712ZE1231g119",
  "bc1p1Dp1z2MAMwu2W2WhLW2WiPr21d2122122241C11171X21428171S141511371qA2P1P1V1P1V1P1V1P1V1P18qv1A1K6",
  "6b8.1oa2a2i_1Q6Q6Q"]

def changesWhenCasefoldedText : List String :=
  ["X2Qw21AN18W1111111111111111111111111111111111111111111111111111111121111111111111111211111111111",
  "111111111111111111111111111111111121111111211121324121332121111121121121311123172121211111111111",
  "111112111111111111111112211131111111111111111111111111111111111111111111111111111111111721221141",
  "1111111s71g11113181611311121H19M1C332111111111111111111111111122211122p1m11111111111111111111111",
  "111111111119111111111111111111111111111111111111111111111111111111211111111111121111111111111111",
  "11111111111111111111111111111111111111111111111111111111111111111111111111111112c1m11uu2c11151gP",
  "6Ya2A6h123WA111111111111111111111111111111111111111111111111111111111111111111111111111111111111",
  "111111111111111111111111111111111111111111111111111111111111111115221111111111111111111111111111",
  "1111111111111111111111111111111111111111111111111111111111111111111119886A88886B111111188Gm12326",
  "5326B4C55326f913261j1GJ1oPQmv1m1m111321111114112183111111111111111111111111111111111111111111111",
  "11111111111111111111111111111111111111111111111111111811141jgU1111111111111111111111111111111111",
  "11111111111J111111111111111111111111111d41111111111111311111111111111111111111111111111111111111",
  "11111111111111111111A111121111111141112111311111111111111111111515111111111111111411123151111111",
  "O1wRm2WwJ7C5fW1Qbc1e1e4a1y4B1F1712gt1p1z4Mwv2W1WiLW1WrUY1"]

def changesWhenCasemappedText : List String :=
  ["X2Q6Qw11AN1V1W21q21D1E2E22114z21I6R121112321112152112217121123651A2c51g142233116113111K1l13X1151",
  "b48c51c1Ad1uu2c111512h123WLs226Ya2B5h123v5131G1n3y4211s3262c126281111111V2r11711331734264D5317f9",
  "13261R1HW132nPq1su1n312127c37432Cc11151oeUk1ISc4E2.19F33251P1U2247O2yQ1Sm2WwJ7C5fW1Q6Qbb1m2W3a14",
  "a1q3B1F17121B1F1712Zs1p1Dp1z2MAMwu2W2WhLW2WqUa2"]

def changesWhenLowercasedText : List String :=
  ["X2Qb3N17X111111111111111111111111111111111111111111111111111111112111111111111111211111111111111",
  "111111111111111111111111111111112111132111213241213321211111211211213111231721212111111111111111",
  "121111111111111111122111311111111111111111111111111111111111111111111111111111111117212211411111",
  "111X91113181611311121H19Z118111111111111111111111115121122p1m11111111111111111111111111111111119",
  "111111111111111111111111111111111111111111111111111111211111111111121111111111111111111111111111",
  "11111111111111111111111111111111111111111111111111111111111111111112c1fw2c11151oMs2pa216h123WA11",
  "111111111111111111111111111111111111111111111111111111111111111111111111111111111111111111111111",
  "111111111111111111111111111111111111111111111111111911111111111111111111111111111111111111111111",
  "111111111111111111111111111111111111111111111111111119886A88886B111111188O8888885B5B4C5B5f913261",
  "j1GJ1oPQmv1m1m1113211111141121831111111111111111111111111111111111111111111111111111111111111111",
  "1111111111111111111111111111111111811141jgU111111111111111111111111111111111111111111111J1111111",
  "11111111111111111111d411111111111113111111111111111111111111111111111111111111111111111111111111",
  "1A111121111111141112111311111111111111111111515111111111111111411123151111111O1hvLQbc1e1e4a1y4B1",
  "F1712gt1p1z4Mwv2W1WiLW1WrUY1"]

def changesWhenTitlecasedText : List String :=
  ["X3Qw11f1O181111111111111111111111111111111111111111111111111111111121111111111111121111111111111",
  "111111111111111111111111111111111211113211121315121323121111121412131112131114112121111111111111",
  "111121111111111111111131111311111111111111111111111111111111111111131111111111111111181221141111",
  "11116121112321112152112217121123651A2c51h11113133I1RZ11233111111111111111111111115112121q1m11111",
  "111111111111111111111111111111911111111111111111111111111111111111111111111111111111211111111111",
  "121111111111111111111111111111111111111111111111111111111111111111111111111111111111111111111111",
  "11n1d1mp36Ya2911k7131G1o311111111111111111111111111111111111111111111111111111111111111111111111",
  "111111111111111111111111111111111111111111111111111111111111111111111111111117511111111111111111",
  "11111111111111111111111111111111111111111111111111111111111111111111111111111986A88886A8888E2888",
  "888512613312842288A312sA1X1G41hQQcw1m111321111116121A1111111111111111111111111111111111111111111",
  "11111111111111111111111111111111111111111111111111111111811141Cc11151peU111111111111111111111111",
  "111111111111111111111J111111111111111111111111111d4111111111111131111111111111111111111111111111",
  "111111111111111111111111111111A111211111111141411221111111111111111111B1111111111111114111213151",
  "1111Q1yQ1Sm2WwJ7C5fX1Qjc1e1e4a1x4B1F1712Zu1p1z3Mwv2W1WiLW1YrUY1"]

def changesWhenUppercasedText : List String :=
  ["X3Qw11f1O181111111111111111111111111111111111111111111111111111111121111111111111121111111111111",
  "111111111111111111111111111111111211113211121315121323121111121412131112131115212121111111111111",
  "112111111111111111112121131111111111111111111111111111111111111113111111111111111118122114111111",
  "116121112321112152112217121123651A2c51h11113133I1RZ11233111111111111111111111115112121q1m1111111",
  "111111111111111111111111111191111111111111111111111111111111111111111111111111111121111111111112",
  "111111111111111111111111111111111111111111111111111111111111111111111111111111111111111111111111",
  "n1d1ew2h123uN6Ya2911k7131G1o31111111111111111111111111111111111111111111111111111111111111111111",
  "111111111111111111111111111111111111111111111111111111111111111111111111111111111751111111111111",
  "111111111111111111111111111111111111111111111111111111111111111111111111111111111986A88886A8888E",
  "2r1124111331241342288A31241nA1X1G41hQQcw1m111321111116121A11111111111111111111111111111111111111",
  "1111111111111111111111111111111111111111111111111111111111111811141Cc11151peU1111111111111111111",
  "11111111111111111111111111J111111111111111111111111111d41111111111111311111111111111111111111111",
  "11111111111111111111111111111111111A111211111111141411221111111111111111111B11111111111111141112",
  "131511111Q1yQ1Sm2WwJ7C5fX1Qjc1e1e4a1x4B1F1712Zu1p1z3Mwv2W1WiLW1YrUY1"]

def dashText : List String :=
  ["j11yg11p11Xo31bW11fW26z11d11F1cC1aW3121V241S1.D1J1l31mip12b11A1f51_y31"]

def defaultIgnorableCodePointText : List String :=
  ["j51XL1iM1Yw22po12r25x_15Q5n1Gqd41xap1Gl71W51l29dbl14lc58bqhOWW4"]

def deprecatedText : List String :=
  ["fA1ff11Ze2111fX22bc26vL2sctR1"]

def diacriticText : List String :=
  [".2111d21614122tF_41856H24192z75n61t1H1R111211c4842c424233Z2Rx2Bw1BY12.38f1AGSz11G134S1g21G1k31G1",
  "k31G1l13y11G171t31k31G1k31G1j32G1y31y3611h31D5h22R1111142Y2312.11m3112e1245P711A2XM3qT2p5B91xA3v",
  "9821m1F2Be31F1c19s12g42W26o2P416123o1_1v2Cb1BzD113B3D3D3D2md33z91wF6f34_21ohT1C211S2o22EY1c33j32",
  "g61RIv14a11_21C1a11r43X24p11a3593W42mvJ1XOGk8111l11j12Z21yN1_a161g119gP2xH6rE3c2Bn14W61f11e22u32",
  ".11i2193e32o52n21G1O735j6131x32x72.31s32p31j82Y8241y41p21I1n21bD1Y8112n21lr5FwqD5x17uY1Hm22._F41",
  "712Xu7k12NWH3368827U4Yq3.1Y67tB1z14Wl17j3313"]

def emojiText : List String :=
  ["Z11615Al3141jy71C1u61M1w26F2lB2C1c51PB43d61d72A191w1415912122214121122131328351115CB2211211I122I",
  "6111232512242B25221521112K256142141212611211111613161A2F12141114311B2m1391E1E1qB2lE3J2p1141wc11C",
  "1vI111ghl31g61W52C2E12Ah2Q12N1K129L2k5Y12m322132p2231d81_1B61O7228C1242142D221829153C38321114161",
  "316s2m1c258234A3112312AZ7C41x8l11A1v5m3D3A5u17F2B69"]

def emojiComponentText : List String :=
  ["Z11615Ap.71r61hft11s.y1QxF5mj14ipXOW3"]

def emojiModifierText : List String :=
  ["x_y35"]

def emojiModifierBaseText : List String :=
  ["zm91x61G4tZp31y132123r322BLJ3143137111O1f6241L142k5335p21G391B1_H12188619A23u11z121211H31Db73g19"]

def emojiPresentationText : List String :=
  ["wu82j643121fG2L2o1Ch11J1D182H2528151L1721141217142S1Z11114311z13O1E1xQ2p1141kbn31g61.512Ah2Q11O1",
  "K12513L2k5X1C91c21MCh145CH313d2111x52_1D41OI1Q2D1s2r2m1c261332344B279Z7C41x8l11A1v5m3D3A5u17F2B6",
  "9"]

def extendedPictographicText : List String :=
  ["f5141jy71C1u61M1w26F2lB2C1_21c21PB43d61d72A191w14161C1o3As32B1111613161A2F12141114311B5j1391E1E1",
  "qB2lE3J2p1141wc11C1vI111chl3W8D3V1y16C2E12AIv1RFA1K129149oD5.98g8m1W4q3Cr2h1C4u18A6e18Uo2Cl11A1v",
  "DW8.V"]

def extenderText : List String :=
  ["t51uG2kR1vD1wQ1mN1_31Zg21u11ZJ1kC1a21fy41h15d32z23suR1sl11YU1M1f41i31L2xZL1mW22w.21eJ3lc11fbK2ya",
  "1211ugS2cW23"]

def graphemeBaseText : List String :=
  ["W1_2X1D1oIm382647111K1W77c51c12o123k111121219R46HAB11k1LG1b38162214W1211UTv2B1Eh1973O4191317F1P5",
  "11B5VHg1v1t1111484137A2T1218222M1711343112622211D2134O5116422M1712121243O4117A2311C119131M171215",
  "34811231F24C718218222M17121531216222F2134IB116331432111232333C5112331331LL6318131N1G3134J321224A",
  "7A1B131N1A153212122212H2124A13EB131f12112531312431A4Q221I3O19112792677A23Cm112B88Db1211151O111A1",
  "29125119A24W1O2R11111E1a1I15125n18161Db1j14161222P243G4D12261F1e111512vB142711142f1142X114271114",
  "2F1v1142Z25T3Q6s2262zK3v27I319J239IED13Fq1217812B93A6A6B5A6v2752Y1115c2AV44234216713g125Bi14Q6B3",
  "v1223u111911286DA6A6Es2m171151A1T9C2W142213u1112311328m1825F3.15h12BB1D1741613215W6W2s8262c12628",
  "1111111V2r11F1E261J23191B5O7n1G22R1D3X1_1i44wKMBLqu12W11uA325j111512u172FN9717171717171717X1.2Y1",
  "Q1v2Cs6Qw16G1s24b35h11.21s29m11jpS3t19yAKl141AW12m2268k6221118LG13141P254A6u18a2ACOD1c18PB2BU6m1",
  "12422G1B471P1f16222B318112A2W11p11132252111OH28B6262697171y14r312143A6azACN4n1ae8kB2g3c17C5511O1",
  "51112121z3GzD2s171W1GGAMZ11J14451d44z42V362626233717D22C1Q1J121F2EY1x3534j13u21D31l1j1Z4T3n1GR4a",
  "19U5c1AU1b14Eg1.42A6a14a14e18q1BC1F17121B1F17123q1Ct99MA8O61g119b26211i112312N1e289m1J125X13R51W",
  "2u14K2l1F4131TA9797W2W1b16C9s13T2R5Q74C7m2f2t1p1Dp17g1CA6c18O82m6V1g13122G3x1e18MB9MI44c1SKN911s",
  "1F74U1221Cn1422214EP7A9a1519I8Z113Bq19A421G1KBI1S32112612_1711141F1B6l113DA8218222M1712153111142",
  "22321C7SA11211c1147121141211111312d1u182311L1113Um11261121121248Ac5l11264212Ra1p1821124BA6DJh111",
  "1261126A6KSR52419Nv5l19121a3p2C82128121O15124114139Ac282g18414R1Ae1624891623k1D129Df27As5Y1EA691",
  "c1E116AT3W1P17121h27121c1L19A66121b14211117As9J249F1a182111Ns21Fo1DxSc3l315Ba6io2Z3DmX1H6Pxy35dI",
  "vr6UC33Acs1vH7V1A4n21A6U71Am17FAA171L5JmDw1c6x2b3h25u1BDW24C2Eu_58sc1f1Adt8417121Z9F1T321E48iCae",
  "2h35D397A2121Wx3w76qDy4q3y1s7Ad12y11134L27U4z1LY231w3KCKCt29Pd4r21d2122122241C11171X21428171S141",
  "511371qA2a92oHt14o181E17qZ1V66b8.1o4j1A72A42WAUIi14A51mES4As6U2B41WF714121F1b629m1a2714A42nOa2i2",
  "z1Y641R1211211A141111614111111312112111111111121124171414111A1H53151Hq12k8i14a3CF2F1F1b1Ak5u1TDi",
  "14972E6w4uU4H3D3t34_26C41FC4u18A6e18U2C42.1qACE2D3A5u17F2B697p41c3cW1Wtf1W1wX46.62Yq5Enf7FkJYj2.",
  "GYl1hw45WZ4"]

def graphemeExtendText : List String :=
  ["WOm3p87d8j111121211e2Bm1LG1b37262214Z11URx2Bw1991O4191315h13x19g1O1W1t1111484137A2T1w1111248191A",
  "2Q122v1142422331U231B2v11451241K2M611w1112148173A2U1x1111C191e1131t1113531472B2T1w112121315272B2",
  "S2v1211248191A2T1e2141231181n2127C8Y3129B7f22R11111t1E15125B1a191c34161222P243G4D12261F1_L3oT3T2",
  "U2U2W2217812B91j1311r32Y11s33429163x6221w11171111286A21m1Vn14m171151e19C2W142213u11123113w1822u4",
  "31D17416132c6W2iG1Z6X1._23j41W3W1gH6f32qkT41AW12m22m813141P251t42QID1c18PBk13m112422d11Z262222C1",
  "81l11p1113225211g1281k712141mvJ1XNGGGkB2zI1Y71r45cq131254e1341b52zH4X25z92l24c2Bn14x31s1Ff1122A3",
  "n142271z13a1518.11C2q19A421_2321126121z4138L2v121111M1E735c26D11111E2r282311N1n212611211212h7124",
  "6212R2r282112g31112611b332415Z8912r71A21141m442241W1Ae1624819623k1D12sC71611o2M271212w3631121711",
  "e223111xA2B2q155111N1bd516FecBC33Wk25x17uW11_14n21ubJ2Xp4k12N.G113458827U4q43xz1t14o181E1M51Fmg1",
  "71H271215a31W57tB1z14yF4.72WN7j37rsbOW3W4m7"]

def hexDigitText : List String :=
  ["m1A76Q6fr_1A76Q6"]

def idsBinaryOperatorText : List String :=
  ["m_B22AnF1"]

def idsTrinaryOperatorText : List String :=
  ["o_B2"]

def idsUnaryOperatorText : List String :=
  ["._B2"]

def idContinueText : List String :=
  ["m1A7Q411Ql11A111215N1V1gE4CE57111Hr312241165111K1p21h4152c51c1216f18j1111212118R44TB5g24c3182A1J",
  "21Gx12b3Es141212k1IS4B5O168h21X42A1J18222M1711342922248142152CA1112316422M1712121221154223317411",
  "7GB319131M1712152A131321F42A971318222M1712152922237342152A11G216331432111232333C4533142161EAGD13",
  "1N1G291314721321242AG418131N1A152913147262142A13CD131p1131554752AA6131I3O191127314611186A22Dw15F",
  "1Ad1211151O111N2511171A24W11N26AB111114A1a14K1I1a191v1g26k22c111512h11jA142711142f1142X114271114",
  "2F1v1142Z22399EGGs2263iJ2H1Q5h23B7M9MBKCD1312Cq231422AX131B6v27h15c2AV1C4CAe125Bi14Q6Bb1S4_11T2B",
  "6AD18E1Gn1j23AH9Cq3Cu18A3n12B5h123G31d15sG262c126281111111V2r11711331734264D5317Y22J1S1D1GDp1D41",
  "3CH1412A11266111111G245541Hf1tp2b769Cc111512u171FO97171717171717171W1bG3PF15254s2271w2145h11.2HW",
  "1m1GWGWk6W2jqLZ2k12j83SKm14A1p3b192d32Z2221118Ls141Jq1Cc2AA6O311n12a1CT3X2EB6V1t19E2A6N3f2O32G25",
  "A6262697171h11E6x3122A6azACN4n1ae8kB2g3c17C55C1D151112121i3X1hBIW22s1e1C4GGG32O3W151d4JA7Q411QBv",
  "236262623Z1C1Q1J121F2EY1x3b2r1e41Y4T3n1F1VW1DU5h15U2a14815g1.42A6a14a14e18q1CB1F17121B1F17123q1C",
  "t99MA8O61g119b26211i112312NAN9VX2J12AMAQc2u162W241258131T2341W1T3TZ181UPs1AMAJDIk3f2t1p1Dp1De18A",
  "6c1351Nw7g11232G3t1X1A18X1VMg1LRN9d2VG9y171DP7A6r11A448a1219b2441D11Z1I1b164.1711141F1A7x15A6418",
  "222M1712151A22232161572735BA11211c11A11211418D2Th25A44Uc2118Ac5s129N6Y1X231BAc1v17A6KSR2F4A67v5x",
  "1b3g2L82128121U1229CAc282k12812R_1818g231If2d6X1FA691j119FAOU2M1Ef27121i13112198A66121b112167As9",
  "N9H1f135DBr21l2wSc3l3Ha6io2X3FmX1GMAxy35dIvr6w1cs1vH7V1A6l21A6U25Bt194CA9L5JmDj13Ac6W2W4h24v17HW",
  "2212B2Eu_58sc1f1Adt8417121Z9F1T321E48iCae2h35D397A32nY4AcGk12N.G5368827U4q43xDr21d2122122241C111",
  "71X21428171S141511371qA2P1P1V1P1V1P1V1P1V1P182o1WGt14o181E1M51FmY1V66r671H2712155.1X11m3j13E2A41",
  "XAVHw1sEg1s6h1bF714121F1b6B7f1i24Acb141R1211211A141111614111111312112111111111121124171414111A1H",
  "53151Hqf3AcW1Wtf1W1wX46.62Yq5Enf7FkJYj2.GYl1hw45WZ4mgtLm7"]

def idStartText : List String :=
  ["X2Q6Ql11A1415N1V1gE4CE57111X451224116113111K1p21h48c51c1216f1d2R44j1h1Z121Z311F272A321G11UTv2B1O",
  "X192415M419131NP7B5O16Hg1w1s131I17AFG48222M17113431G1D213E2A186422M17121212V411J3G9131M17121531I",
  "1F2N1B8222M17121531U213F1H116331432111232333CM1q18131N1G31Q32122U148131N1A1531V212F2H9131f121G15",
  "383O65I3O191127w1m112C7w1211151O111A12912511L4W11_181a1R5p3h1K1G6443132734DC1Hc111512h11jA142711",
  "142f1142X1142711142F1v1142Z2b1GGs2263iJ2H1Q5h23B7IDJEIED13Fq1Z1141Z2v27f1115c2AVn1U25Bi14Qs1N9r1",
  "o21z2l1H8s1UD2Ai1Qa1f13Aa12B5h123f141612315W6W2s8262c126281111111V2r11711331734264D5317q31D1GDb3",
  "1412A11266111111G245541Hf1tp2b76432Cc111512u171GN9717171717171717cH3P975254s2451w2145h11.2HW1m1G",
  "WGWk6W2jqLZ2k12j83GA2Kl1GV2m2d192d32Z2221118LG13141NTq1Eo1.163112BSANPT7l1S1G51AA51f1N318KN313o1",
  "1132252111O32B73C6262697171h11E6p3TazACN4n1ae8kB2g3c17C5511A1D151112121i3X1hBIW22s1e1Cq351d4a1Q6",
  "QBv236262623Z1C1Q1J121F2EY1x3b2r1h8T3n1l1W1DU5c1AU2a14815g1.4Ia14a14e18q1CB1F17121B1F17123q1Ct99",
  "MA8O61g119b26211i112312NAN9VX2J12AMAQc2u162W21F4131Tg1T3TZ181SRs1AMAJDIk3f2t1p1Dp1Da1c1S9Nw7g162",
  "G3x1TA18Mg1Ik1LRNCr1v1221Dj1W1PQa1T1218Z131Cm1E4L111Z1I1PJ2_1711141F1A7l1c18222M17121531I1C5UA11",
  "211c111P111i1r1I4K3Um1K211u5l1f14a1m1K1x1h1D1d2Rb17v5i1q3W2V82128121OF111.282d1G111S1Ae171L1Bk1J",
  "1If2d6X1V91b1H1n1Um37121c1L1P6121W1E1dAJF11D1Y1y31l2wSc3l3Ha6io2X3FmX1H6Pxy35dIvr6UYt1vH7VHl2HUI",
  "m1G4VL5JmDj1p6W2W4h251Y2DW2211Su_58sc1f1Adt8417121Z9F1T321E48iCae2h35D397Acx5r21d2122122241C1117",
  "1X21428171S141511371qA2P1P1V1P1V1P1V1P1V1P18qv1V66b8.1o4j1A7G1XAUIi1aFSa7U21lF714121F1b6x1a271qb",
  "141R1211211A141111614111111312112111111111121124171414111A1H53151Hag4Wtf1W1wX46.62Yq5Enf7FkJYj2.",
  "GYl1hw45WZ4"]

def ideographicText : List String :=
  ["cWC2P9E3bUWk6W2WmKWeMkB2g3geT1Ru_58sc1g19dZ9iCaeJWtf1W1wX46.62Yq5Enf7FkJYj2.GYl1hw45WZ4"]

def joinControlText : List String :=
  ["iW82"]

def logicalOrderExceptionText : List String :=
  ["Wo35x35mt2321wda122112"]

def lowercaseText : List String :=
  ["X3Ql11A141a1O18111111111111111111111111111111111111111111111111111111121111111111111112111111111",
  "111111111111111111111111111111111111121111321112132412133212111112112112131112223612121111111111",
  "111111211111111111111111221113111111111111111111111111111111111111111111111111111111111172122114",
  "11111111b21a172U5W31h11113124I1RZ11233111111111111111111111115112122p1m1111111111111111111111111",
  "111111111191111111111111111111111111111111111111111111111111111121111111111112111111111111111111",
  "111111111111111111111111111111111111111111111111111111111111111111111111111111m1f1dw2h114uN6Ya29",
  "11r3W6X21111111111111111111111111111111111111111111111111111111111111111111111111111111111111111",
  "111111111111111111111111111111111111111111111111111111111111911111111111111111111111111111111111",
  "11111111111111111111111111111111111111111111111111111111111111986A88886A8888E2888888512613312842",
  "288A312v31D1GDj313231R14141228441X1G41hQQcw1m111321111114112183111111111111111111111111111111111",
  "111111111111111111111111111111111111111111111111111111111111111112711141Cc11151peU11111111111111",
  "1111111111111111111111111111111J111111111111111111111111113b411111111111131111111111111111111111",
  "111111111111111111111111111111111111111A11112111111111411121131111111111111111111151511111111111",
  "1111411121311111111111M31113rPh11E6m2WwJ7C5fX1Qjc1e1e4a1x4B1F1712ZE1231g119be1p1z3Mwv2W1WiLW1wiP",
  "QQ71IQQQ411171BQQQQQQQQQQQQQQQQQSSP16QP16QP16QP16QP1611qv1A1K66b8.1qb2Y1"]

def mathText : List String :=
  ["h11G3V1T111j1141b11V1uM321Q223lG3jm61R3B131D1E4L5B5X2D413245I1412A112661322213163E11a2O1612424W1",
  "1162Ei884K2w21UR11O1B7zD2CA46422235E11126B852v1111T493mAW2W8WGm1L26y.p11tP611Y51G3T111T111Z4164p",
  "Wr1r21d2122122241C11171X21428171S141511371qA2a92o1Wm541R1211211A14111161411111131211211111111112",
  "1124171414111A1H53151Hq12"]

def noncharacterCodePointText : List String :=
  ["mk_1W1kG2.__12.__12.__12.__12.__12.__12.__12.__12.__12.__12.__12.__12.__12.__12.__12.__12"]

def patternSyntaxText : List String :=
  ["X1FA7Q411Q4Y1711121112414131N1V1uu7O8F2J1An9mMW5sJUiZ1WGW4XC34PF1jep12b82"]

def patternWhiteSpaceText : List String :=
  ["95I1a31ey72O2"]

def prependedConcatenationMarkText : List String :=
  ["Wm16t61n11WC2m21w.X21F1"]

def quotationMarkText : List String :=
  ["Y1141Z41F1yw78P2dm31fE4D3Xnp14z5141w22"]

def radicalText : List String :=
  ["WqBQ1v2Cs6"]

def regionalIndicatorText : List String :=
  ["cly3Q"]

def sentenceTerminalText : List String :=
  ["X11C1G1fg11p43q51h13s71z111132b92at12sO142bO1c62i6151w92YB4k5222T2y52X22yT293al31D1M2jD1ydT1k82Z",
  "7131.B2s22_21u42p43m42v71cpK132f51C1G1X21qt22zd15i14z52r34_33X4261G2u2212i31XD2rB25Ff32v73bG111x",
  "72t22aD2qL2g22fvI2b41X22B1pQ1cmJ1el71"]

def softDottedText : List String :=
  ["f32a61v81U1q11K1WA1Y3111fe61p11D131a41z41bD1s62ov21bzf32o12o12o12o12o12o12o12o12o12o12o12o12ca21",
  "n92Q1"]

def terminalPunctuationText : List String :=
  ["X11A111B231.P181XG1v11e21E113q51h1B11h72s1FV1b82qd12i5146t92rO8bO1y33d22z4331d1422w92YB4k5213T2y",
  "55.12yT293al31D141A11232iD2xdT2j83Z75.B2s22_21t43p43_31G2v71apK314f51A111B231X2121wX11m11ca11d61",
  "s92u46a26v24uT5i14z57m34_33X4261G2u25i31XD3C2cB43Ff32v73bG111x72t2242.C3j11bK2g22hf15vlH2b41X23A",
  "1oQ2cmJ1dl74"]

def unifiedIdeographText : List String :=
  ["WWDWk6W2WmKkmM21112A1111223skX2Wtf1W1wX46.62Yq5Enf7FkJYj4hw45WZ4"]

def uppercaseText : List String :=
  ["X2Qb3N17X111111111111111111111111111111111111111111111111111111112111111111111111211111111111111",
  "111111111111111111111111111111112111132111213241213321211111211211213111231712121211111111111111",
  "121111111111111111121211311111111111111111111111111111111111111111111111111111111117212211411111",
  "111X91113181611311121H19Z11233111111111111111111111115121122p1m111111111111111111111111111111111",
  "191111111111111111111111111111111111111111111111111111112111111111111211111111111111111111111111",
  "1111111111111111111111111111111111111111111111111111111111111111111112c1fw2c11151oMs2pa216h123WA",
  "111111111111111111111111111111111111111111111111111111111111111111111111111111111111111111111111",
  "111111111111111111111111111111111111111111111111111119111111111111111111111111111111111111111111",
  "11111111111111111111111111111111111111111111111111111119886A88886B111111188e24C4C4C5B4c814133232",
  "1356111111424A251QGJ1oPQmv1m1m111321111114112183111111111111111111111111111111111111111111111111",
  "11111111111111111111111111111111111111111111111111811141jgU1111111111111111111111111111111111111",
  "11111111J111111111111111111111111111d41111111111111311111111111111111111111111111111111111111111",
  "11111111111111111A111121111111141112111311111111111111111111515111111111111111411123151111111O1h",
  "vLQbc1e1e4a1y4B1F1712gt1p1z4Mwv2W1WiLW1WjPQQQQQQ11221222418QQQ2142817R214151137RQQQQQQQQQQQUPX1P",
  "X1PX1PX1PX11rf4Y1kW2Q6Q6Q"]

def variationSelectorText : List String :=
  ["hW6311mlv1GmtWQm7"]

def whiteSpaceText : List String :=
  ["95I1a31Q1_k51_h2BT251l11Wz31"]

def xidContinueText : List String :=
  ["m1A7Q411Ql11A111215N1V1gE4CE57111Hr312331165111K1p21h4152c51c1216f18j1111212118R44TB5g24c3182A1J",
  "21Gx12b3Es141212k1IS4B5O168h21X42A1J18222M1711342922248142152CA1112316422M1712121221154223317411",
  "7GB319131M1712152A131321F42A971318222M1712152922237342152A11G216331432111232333C4533142161EAGD13",
  "1N1G291314721321242AG418131N1A152913147262142A13CD131p1131554752AA6131I3O191127314611186A22Dw15F",
  "1Ad1211151O111N2511171A24W11N26AB111114A1a14K1I1a191v1g26k22c111512h11jA142711142f1142X114271114",
  "2F1v1142Z22399EGGs2263iJ2H1Q5h23B7M9MBKCD1312Cq231422AX131B6v27h15c2AV1C4CAe125Bi14Q6Bb1S4_11T2B",
  "6AD18E1Gn1j23AH9Cq3Cu18A3n12B5h123G31d15sG262c126281111111V2r11711331734264D5317Y22J1S1D1GDp1D41",
  "3CH1412A11266111111G245541Hf1tp2b769Cc111512u171FO97171717171717171W1bG3PF15254s222231w2145h11.2",
  "HW1m1GWGWk6W2jqLZ2k12j83SKm14A1p3b192d32Z2221118Ls141Jq1Cc2AA6O311n12a1CT3X2EB6V1t19E2A6N3f2O32G",
  "25A6262697171h11E6x3122A6azACN4n1ae8kB2g3c17C55C1D151112121i3X1h46w6IW22s1e1A6GGG32O3X1111311111",
  "111.3JA7Q411QBv236262623Z1C1Q1J121F2EY1x3b2r1e41Y4T3n1F1VW1DU5h15U2a14815g1.42A6a14a14e18q1CB1F1",
  "7121B1F17123q1Ct99MA8O61g119b26211i112312NAN9VX2J12AMAQc2u162W241258131T2341W1T3TZ181UPs1AMAJDIk",
  "3f2t1p1Dp1De18A6c1351Nw7g11232G3t1X1A18X1VMg1LRN9d2VG9y171DP7A6r11A448a1219b2441D11Z1I1b164.1711",
  "141F1A7x15A6418222M1712151A22232161572735BA11211c11A11211418D2Th25A44Uc2118Ac5s129N6Y1X231BAc1v1",
  "7A6KSR2F4A67v5x1b3g2L82128121U1229CAc282k12812R_1818g231If2d6X1FA691j119FAOU2M1Ef27121i13112198A",
  "66121b112167As9N9H1f135DBr21l2wSc3l3Ha6io2X3FmX1GMAxy35dIvr6w1cs1vH7V1A6l21A6U25Bt194CA9L5JmDj13",
  "Ac6W2W4h24v17HW2212B2Eu_58sc1f1Adt8417121Z9F1T321E48iCae2h35D397A32nY4AcGk12N.G5368827U4q43xDr21",
  "d2122122241C11171X21428171S141511371qA2P1P1V1P1V1P1V1P1V1P182o1WGt14o181E1M51FmY1V66r671H2712155",
  ".1X11m3j13E2A41XAVHw1sEg1s6h1bF714121F1b6B7f1i24Acb141R1211211A141111614111111312112111111111121",
  "124171414111A1H53151Hqf3AcW1Wtf1W1wX46.62Yq5Enf7FkJYj2.GYl1hw45WZ4mgtLm7"]

def xidStartText : List String :=
  ["X2Q6Ql11A1415N1V1gE4CE57111X451233116113111K1p21h48c51c1216f1d2R44j1h1Z121Z311F272A321G11UTv2B1O",
  "X192415M419131NP7B5O16Hg1w1s131I17AFG48222M17113431G1D213E2A186422M17121212V411J3G9131M17121531I",
  "1F2N1B8222M17121531U213F1H116331432111232333CM1q18131N1G31Q32122U148131N1A1531V212F2H9131f121G15",
  "383O65I3O191127w1m111D7w1211151O111A11A12511L4W11_181a1R5p3h1K1G6443132734DC1Hc111512h11jA142711",
  "142f1142X1142711142F1v1142Z2b1GGs2263iJ2H1Q5h23B7IDJEIED13Fq1Z1141Z2v27f1115c2AVn1U25Bi14Qs1N9r1",
  "o21z2l1H8s1UD2Ai1Qa1f13Aa12B5h123f141612315W6W2s8262c126281111111V2r11711331734264D5317q31D1GDb3",
  "1412A11266111111G245541Hf1tp2b76432Cc111512u171GN9717171717171717cH3P975254s2631w2145h11.2HW1m1G",
  "WGWk6W2jqLZ2k12j83GA2Kl1GV2m2d192d32Z2221118LG13141NTq1Eo1.163112BSANPT7l1S1G51AA51f1N318KN313o1",
  "1132252111O32B73C6262697171h11E6p3TazACN4n1ae8kB2g3c17C5511A1D151112121i3X1h46w6IW22s1e1At311131",
  "1111111.3a1Q6QBu12V36262623Z1C1Q1J121F2EY1x3b2r1h8T3n1l1W1DU5c1AU2a14815g1.4Ia14a14e18q1CB1F1712",
  "1B1F17123q1Ct99MA8O61g119b26211i112312NAN9VX2J12AMAQc2u162W21F4131Tg1T3TZ181SRs1AMAJDIk3f2t1p1Dp",
  "1Da1c1S9Nw7g162G3x1TA18Mg1Ik1LRNCr1v1221Dj1W1PQa1T1218Z131Cm1E4L111Z1I1PJ2_1711141F1A7l1c18222M1",
  "7121531I1C5UA11211c111P111i1r1I4K3Um1K211u5l1f14a1m1K1x1h1D1d2Rb17v5i1q3W2V82128121OF111.282d1G1",
  "11S1Ae171L1Bk1J1If2d6X1V91b1H1n1Um37121c1L1P6121W1E1dAJF11D1Y1y31l2wSc3l3Ha6io2X3FmX1H6Pxy35dIvr",
  "6UYt1vH7VHl2HUIm1G4VL5JmDj1p6W2W4h251Y2DW2211Su_58sc1f1Adt8417121Z9F1T321E48iCae2h35D397Acx5r21d",
  "2122122241C11171X21428171S141511371qA2P1P1V1P1V1P1V1P1V1P18qv1V66b8.1o4j1A7G1XAUIi1aFSa7U21lF714",
  "121F1b6x1a271qb141R1211211A141111614111111312112111111111121124171414111A1H53151Hag4Wtf1W1wX46.6",
  "2Yq5Enf7FkJYj2.GYl1hw45WZ4"]

/-- The texts of the properties by name, in lower case without separators. -/
def propertyTexts : List (String × List String) := [
  ("ahex", asciiHexDigitText),
  ("asciihexdigit", asciiHexDigitText),
  ("alpha", alphabeticText),
  ("alphabetic", alphabeticText),
  ("bidic", bidiControlText),
  ("bidicontrol", bidiControlText),
  ("bidim", bidiMirroredText),
  ("bidimirrored", bidiMirroredText),
  ("ci", caseIgnorableText),
  ("caseignorable", caseIgnorableText),
  ("cased", casedText),
  ("cwcf", changesWhenCasefoldedText),
  ("changeswhencasefolded", changesWhenCasefoldedText),
  ("cwcm", changesWhenCasemappedText),
  ("changeswhencasemapped", changesWhenCasemappedText),
  ("cwl", changesWhenLowercasedText),
  ("changeswhenlowercased", changesWhenLowercasedText),
  ("cwt", changesWhenTitlecasedText),
  ("changeswhentitlecased", changesWhenTitlecasedText),
  ("cwu", changesWhenUppercasedText),
  ("changeswhenuppercased", changesWhenUppercasedText),
  ("dash", dashText),
  ("di", defaultIgnorableCodePointText),
  ("defaultignorablecodepoint", defaultIgnorableCodePointText),
  ("dep", deprecatedText),
  ("deprecated", deprecatedText),
  ("dia", diacriticText),
  ("diacritic", diacriticText),
  ("emoji", emojiText),
  ("ecomp", emojiComponentText),
  ("emojicomponent", emojiComponentText),
  ("emod", emojiModifierText),
  ("emojimodifier", emojiModifierText),
  ("ebase", emojiModifierBaseText),
  ("emojimodifierbase", emojiModifierBaseText),
  ("epres", emojiPresentationText),
  ("emojipresentation", emojiPresentationText),
  ("extpict", extendedPictographicText),
  ("extendedpictographic", extendedPictographicText),
  ("ext", extenderText),
  ("extender", extenderText),
  ("grbase", graphemeBaseText),
  ("graphemebase", graphemeBaseText),
  ("grext", graphemeExtendText),
  ("graphemeextend", graphemeExtendText),
  ("hex", hexDigitText),
  ("hexdigit", hexDigitText),
  ("idsb", idsBinaryOperatorText),
  ("idsbinaryoperator", idsBinaryOperatorText),
  ("idst", idsTrinaryOperatorText),
  ("idstrinaryoperator", idsTrinaryOperatorText),
  ("idsu", idsUnaryOperatorText),
  ("idsunaryoperator", idsUnaryOperatorText),
  ("idc", idContinueText),
  ("idcontinue", idContinueText),
  ("ids", idStartText),
  ("idstart", idStartText),
  ("ideo", ideographicText),
  ("ideographic", ideographicText),
  ("joinc", joinControlText),
  ("joincontrol", joinControlText),
  ("loe", logicalOrderExceptionText),
  ("logicalorderexception", logicalOrderExceptionText),
  ("lower", lowercaseText),
  ("lowercase", lowercaseText),
  ("math", mathText),
  ("nchar", noncharacterCodePointText),
  ("noncharactercodepoint", noncharacterCodePointText),
  ("patsyn", patternSyntaxText),
  ("patternsyntax", patternSyntaxText),
  ("patws", patternWhiteSpaceText),
  ("patternwhitespace", patternWhiteSpaceText),
  ("pcm", prependedConcatenationMarkText),
  ("prependedconcatenationmark", prependedConcatenationMarkText),
  ("qmark", quotationMarkText),
  ("quotationmark", quotationMarkText),
  ("radical", radicalText),
  ("ri", regionalIndicatorText),
  ("regionalindicator", regionalIndicatorText),
  ("sterm", sentenceTerminalText),
  ("sentenceterminal", sentenceTerminalText),
  ("sd", softDottedText),
  ("softdotted", softDottedText),
  ("term", terminalPunctuationText),
  ("terminalpunctuation", terminalPunctuationText),
  ("uideo", unifiedIdeographText),
  ("unifiedideograph", unifiedIdeographText),
  ("upper", uppercaseText),
  ("uppercase", uppercaseText),
  ("vs", variationSelectorText),
  ("variationselector", variationSelectorText),
  ("wspace", whiteSpaceText),
  ("whitespace", whiteSpaceText),
  ("space", whiteSpaceText),
  ("xidc", xidContinueText),
  ("xidcontinue", xidContinueText),
  ("xids", xidStartText),
  ("xidstart", xidStartText)]

def property? (name : String) : Option CodeSet :=
  (propertyTexts.lookup name).map fun t => CodeSet.ofGaps 0 (numbers t)

def alphabetic : CodeSet := CodeSet.ofGaps 0 (numbers alphabeticText)

def joinControl : CodeSet := CodeSet.ofGaps 0 (numbers joinControlText)

def blanks : CodeSet := CodeSet.ofGaps 0 (numbers whiteSpaceText)

end ApiContract.Unicode
