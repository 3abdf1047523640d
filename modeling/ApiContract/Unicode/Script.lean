import ApiContract.Unicode.Runs

/-!
Scripts of code points, as in Unicode 16, and the scripts that share a code point.
-/

namespace ApiContract.Unicode

/-- Lengths and scripts of the runs that cover all code points in order. -/
def scriptText : List String :=
  ["X21Q361Q3l1113F11351N311V311XE3d1153512q1K1m3644113420441114401411141134101410K410_14Er1G4b4L26f",
  "5L10c1g120o1g1203g110t1N80RN406NB052116211E2113211W1211A2B6Q216i3211Y12Eh110y1h1203h1m12o1Y4E0x1",
  "k2203k2k1l220Fl210Sm2201m210Bh150V2102250h2211T2n2a146Fa121Qa14B108B202B20MB107B101B304B209B202B",
  "204B801B402B105B20PB20391069402920M91079102910291029201910594029203930197049101970H9A03C109C103C",
  "10MC107C102C105C20AC103C103C201CF04C20CC707C103D108D202D20MD107D102D105D209D202D203D703D402D105D",
  "20IDA0281068303810483028101810283028303830C840583038104820186018E0L850DG103G10NG10GG209G103G104G",
  "702G103G201G204G20AG709GDH103H10NH10AH105H209H103H104H702H602H104H20AH103HC0DR103R10p1R103R106R4",
  "0GR20QR103I10II30OI109I101I207I301I406I101I108I60AI203IC0w1n24011Sn2b102J101J105J10OJ101J10NJ205",
  "J101J107J10AJ204JW10e2S10a1S40d1S10a1S10FS107S412Sb10W5i1c1M101M501M20h1M114MW8Ef251045207510151",
  "04520f15104520X15104520751015104520F510v15104520Z2520W1530Q560s2s1206s120WKt1TZ430h2o231Bo270Mp2",
  "901p2La42190Kb4C0Du1103u1102u1C0.2j120Aj160Aj1602V211V11KV60v2V70h1V50c2t1A0Vb110Cb140Cb1401b130",
  "Cb1Uq2205q2B0i1k140Qk160Bk1302k1W1j1Sr2202r2_1c110Tc120Bc160Ac160Ec120V6n10j2s210o1s2W2t2q1u2804",
  "u2u1v130Fv1303v1m1c4BL50h1M203M8t2803611D611764116611631261150c13541Ln13544354D31Lc2314W26W83M42",
  "06420c142064208410141014101410V420r1410F410E4206410J42034109410C126t2110B11320B113F110D330X11F0X",
  "16F0c111431236113R113H1f133140wK1M0B1L0WT1W8d4qJ120W1110f31W3W1W13q3r1507r1c1M101M501M20u1w1702w",
  "1E01w1N59075107510751075107510751075107510W1L.21Y10Q710v27C0s67Q0L1171117P197462E81474110s2X1202",
  "6213X111w2F213F50h1q110.2E10G1W1q1c119011GFVE10W21VEn21l1F11u2Fe51Wk67W21WmK7ja1v230t1v290m1w2i9",
  "e4K0W3Lu2x280Y11c3331Z23202310131083L0E3j1f430A160u1g480c2y280Cy260W1a1k1z2111z2a1.2B01.2TE30k2x",
  "11011Ax1402x1Vi110t1l190El120Al1204l1W1i1Z2_2O05_2Ny1A065206520659075107510h13119314432140m2s1k1",
  "y120Ay160azAEC0NE40n1Eae80kB720g37c1073C05g150QN105N101N102N102N10ANp32G0hB221m2220s127012W10G2G",
  "6A160E62LZ1110J11041405210d42201110W11Q361Q3B1AF11j1F21VE306E206E206E203E30711071A05120CT10QT10J",
  "T102T10FT20ETY10x3T503140j113091l2410D13014l10j1116Y40Th430n1i4F016R140a1W3903W3Rj450h1k450UX310",
  "1X3a1Y340EY3g10m2l4m1m4UZ320AZ360a1a340a1a340e1n480q1b3B01b3BO10FO107O102O10BO10FO107O102O30q1o4",
  "C0t9z190Mz1A08z1O06310g131093b206Y1201Y110i1Y1102Y1301Y1201Y1Mc3109c3W1p4Vd3809d3m10J.1102.1505.",
  "1Se3301e3Qf3501f3W20W1q4O_140K_120k1_14P102P508P103P10TP203P40AP709P70W1r4W1s4W10d1g340Cg390s1h3",
  "307h3Mi3208i3Jj3508j3IW2704W2C07W2m20f2t4t10p1X2D0p1X2706X2e1k380Ak360c1Y230TY2802Y2m60V210g1Z21",
  "03Z2202Z2G032t1042e1u480g1v4M0Qw4c10Sx4K0Ny490k2a240a1a2901a2Z2l3A01l320Pm370Am360r1n310In380d1z",
  "490W3.410KIB0Io310l1o3.107d1101d1104d110Fd110Bd160x1p350Ap3604A108A202A20MA107A102A105A10169A202",
  "A203A201A601A507A207A305AB0AK101K201K10c1K10AK101K201K104K10AK102K802KT0y2q3105q3U0e2r380Ar3c50s",
  "1s320c1s3Y10b2t3B0At360DVJ0w1u360Au360Ki1S0Rb220Fb240Nb2v50y1_4a30p2v3C01v37Q201Q208Q102Q10UQ102",
  "Q20CQ90AQc208c220k1c220Bc2R0e2W580p2X5D0Gt1v1Y570Aa1s50Y1w3E0Aw3609m110j1m110Em1A0Tm130W1d220Md2",
  "10Ed2f207U102U10i1U301U102U109U80AU606Z1102Z110b1Z1102Z1106Z170AZ1s90PZ570He210f1e230Te2r201w2F0",
  "o18D018wSn1c30l3n1105n1B0a6n1io20Z3a5D0sY1x3A0xy3x350dIb5vr60w1c5cs10vHx270Vf210Af2402f2l2y310Ay",
  "360Uz3206z3A0c2e1A0Ae1107e110Le150Je1mD0w1d5c60x2e5b30h2g240v1g270Hg2W201o11.3271h2B027E0u_5o180",
  "WOo1sEh2f101h29o1dt804F107F102F101F_8X13FF01X1T03X1201FE04F80iC.3ae20h3f150Df1309f170Af1204f141y",
  "w30w7160qD1i20k1620N690q31y10s71A0d1120.1136H1862176U146z11L0c24w30K1C0K1C0t2190P1d40r2110d21102",
  "120112021204110C11011107110X2110412081107110S1104110511011307110qA120a9120o11iKi2F05i210Fi2mY10V",
  "36063r607W110HW1207W1102W1105W150.1LX101Lm30j1p130Ep120Ap1402p1WA0Vf5H0w1_3501_3mE0g1g5s60h1W440",
  "1W4WF0751045102510F510b6X420GX4f10i2j240Aj2402j2nO0a21i20z11Y604210R210221012201210A210421012101",
  "2601240121012101210321022101220121012101210121012102210122042107210421042101210A210H25032105210H",
  "2q1022k80i1140a31C0F120F110F110b11A0k51u10Q11X121D0i1140917021E061w40uU140H130D130t3140_2160C140",
  "11F0C140u1180A160e1180U120C14021.10qA1C0E120D130A150u1170F120B1609170p4110c31cW10Wtf17W10wX4760.",
  "6720Yq57E0nf77F0kJ7Yj20.G7Yl10hw4750WZ47nYtL011U0W31W40m76mm_50"]

def scriptRuns : List Run := Run.ofNumbers 0 (numbers scriptText)

/-- Runs of shared code points: the distance from the last one, the length, and the scripts after
their count. -/
def sharedText : List String :=
  ["YQ1142114TD13p812Lk4012LW1022L3012LW1aC162k2k3h1Y4Z2E162k2k3h1Y4Z20132h1Y4217j22k2k3h1Y4Z2W119j2",
  "2m2g3w4W2k3v4h1AB22h1AA32Y4Z26122h1Z3122k3yJ1DBa1AC9H3RD.48Gr301CBa1AC9H3RD8Gr3H1KBa1_4Z1UAC9Hz4",
  "Rc2Dp3If4u38Gr301LBa1_4Z1UAC9Hb1z4Rc2Dp3If4u38Gr30A4a1_4l3z4s3A3Bn3f4s3A29d1s3A2Co3s7E2A8o7A2Hc2",
  "mQA3n3i1q2n512M3vn124b4a4u1p2h622Vg4112Vg4gc114Ba1AH011a1014Ba1AH012a1A011a1022Ba1012a1.4012Ba10",
  "12a1.4016a1HRD8G011a1022a1.4021a1012a1.4012Ba1071a1012a1c2012Ba1021a1012Ba1041a1018Ba1AHc2DGr301",
  "2a1A013a1AH022Ba1011B022a1A011c2b6214s112Lh1111h1qH123VW613a1A3og312LW1zD26q1E7X1Fv2015q1E7X1F21",
  "171A6q1E7X1Fv2115q1E7X1F086q1E7X1Fv2045q1E7X1FA42q17215q1E7X1F052X1F115q1E7X1F4237X1F0217v242X1F",
  "312X1Fw216q1E7X1Fv2012X1Fp4G17W1a117y1e117u1n117FC17p1117u2P17A517W3V17mpS12LW1m48273e93Ea1_4C9o",
  "3Hl3z4Rt3c2p3u3r303Da1_4C9o3Hl3z4t3c2p3u3r304Ba1_4C9o3l3z4t3p3u3r3t512Ba1112a18w113z23i1W512r2x1",
  "kxK222k2o5122Y4A122Y4d225q1E7X1Fw856q1E7X1Fv2A12X1Fj122X1FWB23a5Y1T012Y1T4j13Y1z1T392Y1TWDS22r1s",
  "_112g3w4kW212A8112A8t122A8pa322A8112A8icd141f1yr5I17.s7217"]

def scriptNames : List (String × Nat) := [
  ("zyyy", 1), ("common", 1), ("arab", 2), ("arabic", 2),
  ("latn", 3), ("latin", 3), ("grek", 4), ("greek", 4),
  ("ethi", 5), ("ethiopic", 5), ("zinh", 6), ("inherited", 6),
  ("qaai", 6), ("hani", 7), ("han", 7), ("taml", 8),
  ("tamil", 8), ("guru", 9), ("gurmukhi", 9), ("gran", 10),
  ("grantha", 10), ("beng", 11), ("bengali", 11), ("gujr", 12),
  ("gujarati", 12), ("orya", 13), ("oriya", 13), ("hang", 14),
  ("hangul", 14), ("kana", 15), ("katakana", 15), ("telu", 16),
  ("telugu", 16), ("knda", 17), ("kannada", 17), ("sinh", 18),
  ("sinhala", 18), ("laoo", 19), ("lao", 19), ("tutg", 20),
  ("tulutigalari", 20), ("cyrl", 21), ("cyrillic", 21), ("geor", 22),
  ("georgian", 22), ("hebr", 23), ("hebrew", 23), ("vith", 24),
  ("vithkuqi", 24), ("khar", 25), ("kharoshthi", 25), ("diak", 26),
  ("divesakuru", 26), ("mlym", 27), ("malayalam", 27), ("tibt", 28),
  ("tibetan", 28), ("linb", 29), ("linearb", 29), ("gonm", 30),
  ("masaramgondi", 30), ("mong", 31), ("mongolian", 31), ("glag", 32),
  ("glagolitic", 32), ("hira", 33), ("hiragana", 33), ("cprt", 34),
  ("cypriot", 34), ("gong", 35), ("gunjalagondi", 35), ("deva", 36),
  ("devanagari", 36), ("limb", 37), ("limbu", 37), ("lana", 38),
  ("taitham", 38), ("mult", 39), ("multani", 39), ("hmng", 40),
  ("pahawhhmong", 40), ("dupl", 41), ("duployan", 41), ("armn", 42),
  ("armenian", 42), ("syrc", 43), ("syriac", 43), ("mymr", 44),
  ("myanmar", 44), ("khmr", 45), ("khmer", 45), ("talu", 46),
  ("newtailue", 46), ("cham", 47), ("bhks", 48), ("bhaiksuki", 48),
  ("xsux", 49), ("cuneiform", 49), ("tang", 50), ("tangut", 50),
  ("hmnp", 51), ("nyiakengpuachuehmong", 51), ("bopo", 52), ("bopomofo", 52),
  ("copt", 53), ("coptic", 53), ("qaac", 53), ("cher", 54),
  ("cherokee", 54), ("cans", 55), ("canadianaboriginal", 55), ("tagb", 56),
  ("tagbanwa", 56), ("lepc", 57), ("lepcha", 57), ("tfng", 58),
  ("tifinagh", 58), ("java", 59), ("javanese", 59), ("mtei", 60),
  ("meeteimayek", 60), ("lina", 61), ("lineara", 61), ("hatr", 62),
  ("hatran", 62), ("merc", 63), ("meroiticcursive", 63), ("phlp", 64),
  ("psalterpahlavi", 64), ("hung", 65), ("oldhungarian", 65), ("gara", 66),
  ("garay", 66), ("yezi", 67), ("yezidi", 67), ("brah", 68),
  ("brahmi", 68), ("ahom", 69), ("nand", 70), ("nandinagari", 70),
  ("marc", 71), ("marchen", 71), ("kawi", 72), ("mroo", 73),
  ("mro", 73), ("plrd", 74), ("miao", 74), ("kits", 75),
  ("khitansmallscript", 75), ("sgnw", 76), ("signwriting", 76), ("adlm", 77),
  ("adlam", 77), ("nkoo", 78), ("nko", 78), ("samr", 79),
  ("samaritan", 79), ("mand", 80), ("mandaic", 80), ("thai", 81),
  ("runr", 82), ("runic", 82), ("tglg", 83), ("tagalog", 83),
  ("tale", 84), ("taile", 84), ("bugi", 85), ("buginese", 85),
  ("bali", 86), ("balinese", 86), ("sund", 87), ("sundanese", 87),
  ("batk", 88), ("batak", 88), ("yiii", 89), ("yi", 89),
  ("lisu", 90), ("bamu", 91), ("bamum", 91), ("saur", 92),
  ("saurashtra", 92), ("kali", 93), ("kayahli", 93), ("rjng", 94),
  ("rejang", 94), ("tavt", 95), ("taiviet", 95), ("ital", 96),
  ("olditalic", 96), ("ugar", 97), ("ugaritic", 97), ("xpeo", 98),
  ("oldpersian", 98), ("osma", 99), ("osmanya", 99), ("osge", 100),
  ("osage", 100), ("aghb", 101), ("caucasianalbanian", 101), ("armi", 102),
  ("imperialaramaic", 102), ("nbat", 103), ("nabataean", 103), ("phnx", 104),
  ("phoenician", 104), ("lydi", 105), ("lydian", 105), ("mani", 106),
  ("manichaean", 106), ("avst", 107), ("avestan", 107), ("prti", 108),
  ("inscriptionalparthian", 108), ("phli", 109), ("inscriptionalpahlavi", 109), ("rohg", 110),
  ("hanifirohingya", 110), ("kthi", 111), ("kaithi", 111), ("sora", 112),
  ("sorasompeng", 112), ("cakm", 113), ("chakma", 113), ("khoj", 114),
  ("khojki", 114), ("sind", 115), ("khudawadi", 115), ("newa", 116),
  ("tirh", 117), ("tirhuta", 117), ("sidd", 118), ("siddham", 118),
  ("modi", 119), ("takr", 120), ("takri", 120), ("wara", 121),
  ("warangciti", 121), ("sunu", 122), ("sunuwar", 122), ("egyp", 123),
  ("egyptianhieroglyphs", 123), ("tnsa", 124), ("tangsa", 124), ("bass", 125),
  ("bassavah", 125), ("nshu", 126), ("nushu", 126), ("wcho", 127),
  ("wancho", 127), ("onao", 128), ("olonal", 128), ("mend", 129),
  ("mendekikakui", 129), ("thaa", 130), ("thaana", 130), ("ogam", 131),
  ("ogham", 131), ("hano", 132), ("hanunoo", 132), ("buhd", 133),
  ("buhid", 133), ("olck", 134), ("olchiki", 134), ("brai", 135),
  ("braille", 135), ("vaii", 136), ("vai", 136), ("sylo", 137),
  ("sylotinagri", 137), ("phag", 138), ("phagspa", 138), ("lyci", 139),
  ("lycian", 139), ("cari", 140), ("carian", 140), ("goth", 141),
  ("gothic", 141), ("perm", 142), ("oldpermic", 142), ("dsrt", 143),
  ("deseret", 143), ("shaw", 144), ("shavian", 144), ("elba", 145),
  ("elbasan", 145), ("todr", 146), ("todhri", 146), ("palm", 147),
  ("palmyrene", 147), ("mero", 148), ("meroitichieroglyphs", 148), ("sarb", 149),
  ("oldsoutharabian", 149), ("narb", 150), ("oldnortharabian", 150), ("orkh", 151),
  ("oldturkic", 151), ("sogo", 152), ("oldsogdian", 152), ("sogd", 153),
  ("sogdian", 153), ("ougr", 154), ("olduyghur", 154), ("chrs", 155),
  ("chorasmian", 155), ("elym", 156), ("elymaic", 156), ("mahj", 157),
  ("mahajani", 157), ("shrd", 158), ("sharada", 158), ("dogr", 159),
  ("dogra", 159), ("zanb", 160), ("zanabazarsquare", 160), ("soyo", 161),
  ("soyombo", 161), ("pauc", 162), ("paucinhau", 162), ("maka", 163),
  ("makasar", 163), ("cpmn", 164), ("cyprominoan", 164), ("hluw", 165),
  ("anatolianhieroglyphs", 165), ("gukh", 166), ("gurungkhema", 166), ("krai", 167),
  ("kiratrai", 167), ("medf", 168), ("medefaidrin", 168), ("toto", 169),
  ("nagm", 170), ("nagmundari", 170)]

/-- Start, length and scripts of the shared runs. -/
def sharedRuns : List (Nat × Nat × List Nat) :=
  let rec go : Nat → Nat → List Nat → List (Nat × Nat × List Nat)
    | 0, _, _ => []
    | fuel + 1, start, gap :: length :: count :: rest =>
      (start + gap, length, rest.take count) ::
        go fuel (start + gap + length) (rest.drop count)
    | _, _, _ => []
  let ns := numbers sharedText
  go ns.length 0 ns

def script? (name : String) : Option CodeSet :=
  (scriptNames.lookup name).map fun n => CodeSet.ofRuns scriptRuns (· == n)

/-- The code points that a named script uses, shared ones included. -/
def scriptExtensions? (name : String) : Option CodeSet :=
  (scriptNames.lookup name).map fun n =>
    let shared := sharedRuns.map fun (start, length, _) => (start, start + length - 1)
    let used := sharedRuns.filterMap fun (start, length, scripts) =>
      if scripts.contains n then some (start, start + length - 1) else none
    ((CodeSet.ofRuns scriptRuns (· == n)).diff (CodeSet.ofRanges shared)).union
      (CodeSet.ofRanges used)

end ApiContract.Unicode
