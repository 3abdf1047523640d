import ApiContract.Unicode.Runs

/-!
Simple case folding, as in Unicode 16: which code points differ in case only.
-/

namespace ApiContract.Unicode

/-- Runs of pairs: the distance of the first member from that of the last run, the step between
members, the number of pairs and the distance within a pair. -/
def foldingText : List String :=
  ["X21BW1A11_c8118W1711i9117W1X311dN011dOB16W1511cZ811HW1I17W1711_j7W111v312O1o12317281H2N1l1231711",
  "Z6111o61221411k61111212j62111311l2111g6111h61111211j6111l6111X3111p6111n61111211Z5111Xof1111p611",
  "1r6111Y4111s61231611w61111211w63111211w61111212v62221411x611114111311u15111011231110112311101123",
  "281H291J1110112311142K1g1291O11hnA1111311enA112_nA2111311b2111d21251A11_mA111ymA111.mAA11lgf1511",
  "hgf1311dhf1111eff1111agf1411agf1111tlA111Xgf1511zlAC11dlA511Zgf1511gff1M11ref1111oef1d511q2011q3",
  "011vZ7h12216111513Y4411q3711c1213b1411W2212_1211ZY7112W1111.1113W1211W3113W1211v1011y2211W1011s2",
  "122W1313W1211s1111W1011m2211V014W1311l1113W1211zh7112W1611pX7V11892C1Q1175111311161Gm2G13W1211kZ",
  "6112W1111jZ611AW1911aZ6113W1211YZ6111W1011YZ6011ZZ6118W1711yY6115W1r1221211bX622F1c12R1s111F1271",
  "F2m11X31c1m1lx21c1WZ7d111WZ7611WZ731h1W.2j113W.2ZL1m2m.b1m2168ua211YkY1011ZkY11111m711amY1411ct3",
  "H11unY1o32n11W311x122Q1.12m11W3188G168G188G188G168H248F188G12g2214s2412a3212W4212m3212.34188G188",
  "G188G1283119G119D128G1285117E119_911Sk11GGZ1111pP1QQgw11m1m1W31117231B1113111B2o11h32217111kgU25",
  "1C2H1q12E1Y5271G2V1d22215251D1115221411m122A1T11WT1281J221511141116231V111muK111yW11QW1_c11e1e1m",
  "51a1e1W61Bd1C1Fd1G17d1812d1it11p1W2m61MW1mw21W1W1WjL1W1W1WsU1Y1Y1"]

/-- Pairs of code points with the same folding. The first one of a pair is the least such code
point, so two others with the same folding share it. -/
def foldingPairs : List (Nat × Nat) :=
  let rec go : Nat → List Nat → List (Nat × Nat)
    | base, gap :: step :: count :: distance :: rest =>
      let first := base + gap
      (List.range count).map (fun i => (first + i * step, first + i * step + distance)) ++
        go first rest
    | _, _ => []
  go 0 (numbers foldingText)

def foldingLeast (n : Nat) : Nat :=
  match foldingPairs.find? (fun p => p.2 == n) with
  | some p => p.1
  | none => n

namespace CodeSet

def foldCase (s : CodeSet) : CodeSet :=
  let least := foldingPairs.filterMap fun p => if s.contains p.2 then some (p.1, p.1) else none
  let widened := s.union (ofRanges least)
  let others := foldingPairs.filterMap fun p =>
    if widened.contains p.1 then some (p.2, p.2) else none
  widened.union (ofRanges others)

end CodeSet

end ApiContract.Unicode
