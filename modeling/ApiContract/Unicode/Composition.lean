import ApiContract.Unicode.Runs

/-!
Canonical composition, as in Unicode 16: which pairs of code points have a single form.
-/

namespace ApiContract.Unicode

/-- For each first member its distance from the last one and the number of its pairs, then for each
pair the distance of the second member from the last one and the composite. -/
def compositionText : List String :=
  ["y11uPkp811uPWp811uPlp83GWOW61X61Y61Z61W82Y81cH1a61Yr71b62jE3WG2YGIWr72Wm73a813dOYm7Sam7Ecm715XOc",
  "81e85g85i8Rd616dOgm75k8Nim74mm76om74km71HWOe61f61g61yr71o82q81s81h61wr73w83aG2cGIur74eH1u85um73w",
  "m711dO.m717XOqF1y82Wn72.81W95cFRY917YOa95Yn71cn74.GNan74en77gn71FWOi61j61k61e91g92i91m91l61es73l",
  "E3eG2gGIgs75k98in711YOq915XOmn7BeFNon74s9Aqn716XOv9Bz9Nsn74x96yn74wn713XO.n76Wo7SYo719WOuF1ZA2n6",
  "4ao75dANco74bA6go74eo71GWOo61p61q61r61iA2kA1kH1s61ks72mA1nE3iG2kGAWD8is75gF12XOqo76so728XOqA6uo7",
  "5uA3mG2oGIwo74sAA.o717XOwA1yA5Wp75WBNYp73uG1.A17dOgp75aBNip73wG1YB6mp74kp71JWOv61w61x61eB1gB2iB2",
  "y61ct71kB1mB1pE3qG2sGAlD8at71op74oB5sp73qp712ZOyp7W1.p716WOWq71Yq71qB5cq71aq7Req712dOgq71iq719WO",
  "ot71z61sB1ut71oH3kq71uB1st7Qqt716XOvB1mq75xB5zBNoq7Eqq77GWOW71X71Y71Z71X82Z81dH1a71Zr71b72kE3XG2",
  "ZGIXr72Xm73b813dOZm7Sbm7Edm715XOd81f85h85j8Rd716dOhm75l8Njm74nm76pm74lm71HWOe71f71g71zr71p82r81t",
  "81h71xr73x83bG2dGIvr74fH1v85vm73xm711dO_m717XOrF1z82Xn72_81X95dFRZ918YOb95Zn71dn74_GNbn74fn77hn7",
  "3sq71EWOi71j71k71f91h92j92l71fs73mE3fG2hGIhs75l98jn712YOr9AmF15XOnn7BfFNpn74t9Arn716XOw9B.9Ntn74",
  "y96zn74xn713XO_n76Xo7SZo719WOvF1aA2n74bo75eANdo74cA6ho74fo71GWOo71p71q71r71jA2lA1lH1s71ls72nA1oE",
  "3jG2lGAXD8js75hF12XOro76to728XOrA6vo75vA3nG2pGIxo74tAA_o717XOxA1zA5Xp75XBNZp73vG1_A18dOhp71tq74b",
  "BNjp73xG1ZB6np74lp71JWOv71w71x71fB1hB2jB2y71dt71lB1nB1qE3rG2tGAmD8bt71pp74pB5tp73rp712ZOzp7W1_p7",
  "17WOXq71Zq71rB5dq71bq72uq7Pfq712dOhq71jq71AWOpt71z71tB1vt71pH3lq71_71tt71vq7Prt716XOwB1nq75yB5.B",
  "Npq7Erq7k13WOj_71bSX2X.7Q4WOcr71ar72gr76er721aO.E11XOwF12XOyF3YF11XOem734WOWs71.r72as76Ys751XOkn",
  "754WOos71ms72ss76qs713XOio73iH4ko711aOgH21XO.F44WOxE1tE3rE8vE64WOdr71br72hr76fr721aO_E11XOxF12XO",
  "zF3ZF11XOfm734WOXs71_r72bs76Zs751XOln754WOps71ns72ts76rs713XOjo73jH4lo711aOhH21XO_F44WOyE1uE3sE8",
  "wE64WOmr71kr72qr76or714WOnr71lr72rr76pr7F2WOqm71sm712WOrm71tm7v12WOmo71oo712WOno71po7D1dOap711dO",
  "bp751dOcp711dOdp771XOup711XOvp711eOwp711eOxp7K1dOxq7X15WOys71ws72Wt76.s7QYt715WOzs71xs72Xt76_s7Q",
  "Zt7E5WOgt71et72kt76it7Qmt715WOht71ft72lt76jt7Qnt771iOkFp11aOiF11aOjFx11aOWF11aOXF11cOym711cOzm75",
  "1aOmH11aOnHZ31iOlF_77WOwz71cS3vz72uz7Deu71fu7n1yz744WOe.71eSIuu71vu725WOg.71fSIev71fv7n1i.727WOw",
  ".71gS3v.72u.72gTBuv71vv764WOu_71iSIew71fw721qOi_746WOg_71kS3f_72e_72hTCvw745WOw_71lSIex71fx7n1y_",
  "731bQqz721bQa.738WOmx71iT3nz72mz7DWu71Xu7k1sz73pz744WOox71jTImu71nu726WOqx71kTIWv71Xv7k1c.73Z.72",
  "8WOsx71lT3n.72m.72gUBmv71nv7k1s.764WOux71iUIWw71Xw722pOa_71b_748WOwx71jU3X_72W_72hUBmw71nw7k1c_7",
  "46WOyx71kUIWx71Xx7k1s_73p_713WOo.71mSX2t.713WOY_71mTX2d_731bQq_742XOpU7qUq11eOdW1A2cOmc12oc131XO",
  "ZW123WOWW16sc12XW112cOXc12yc111eO.c114WOjW14Yd12vW12ad121XOiW141eOcd154aOkd12kW12md13od141eOqd14",
  "1eOud121eOid132cOnc12pc131XOpY123WOmY16tc12nY112cOYc12zc111eO_c114WOzY14Zd12vX12bd121XOyY141eOdd",
  "154aOld12.Y12nd13pd141eOrd141eOvd121eOjd191eOtY1U1lOsZ111lOtZ1Z31eOwc111eOxc1F1eOgd111eOhd1.93po",
  "1Yn11Zn11bn1X11qo1an121qo1cn1t31qo1Ys1H1qo1ps131qo1Ws1pI1yf2ff281yf2nf231yf2qf2q42.j2hk2Pik2WC3.",
  "v2hw2Oew21iw2h21t.2qy2q12.z2g.2Pi.211.z2h.2_31sY3eY3v31rc3Wc373Yc3gc3Jdc31ec341rc3hc3y32.f3gg3Pi",
  "g311.f3hg3o43gk3wk35yk3G.k331gk3zk3fI1kX4cX4Wt21rv6cu621rv6eu621rv6gu621rv6iu621rv6ku641rv6ou6f1",
  "1rv6xv621rv6zv621rv6Ww611rv6Xw631rv6Zw6qN1aOun711aOvn7Z11aOyo711aOzo771dOep711dOfp7z12YOir74sr71",
  "2YOjr74tr7N1YOcs711YOds7J1YOus711YOvs7p14WOYu71au7X2cu73Wy714WOZu71bu7X2du73Xy711bQYy711bQZy711b",
  "Qay711bQby711bQcy711bQdy714WOgu71iu7X2ku73ey714WOhu71ju7X2lu73fy711bQgy711bQhy711bQiy711bQjy711b",
  "Qky711bQly712WOou71qu712WOpu71ru772WOwu71yu712WOxu71zu774WOYv71av7X2cv73my714WOZv71bv7X2dv73ny71",
  "1bQoy711bQpy711bQqy711bQry711bQsy711bQty714WOgv71iv7X2kv73uy714WOhv71jv7X2lv73vy711bQwy711bQxy71",
  "1bQyy711bQzy711bQ.y711bQ_y713WOov71qv7X2sv713WOpv71rv7X2tv773WOwv71yv7X2.v713WOxv71zv7X2_v772WOY",
  "w71aw712WOZw71bw772WOgw71iw712WOhw71jw773WOow71qw7X2sw713WOpw71rw7X2tw783WOxw71zw7X2_w774WOYx71a",
  "x7X2cx73Wz714WOZx71bx7X2dx73Xz711bQYz711bQZz711bQaz711bQbz711bQcz711bQdz714WOgx71ix7X2kx73ez714W",
  "Ohx71jx7X2lx73fz711bQgz711bQhz711bQiz711bQjz711bQkz711bQlz711bQoz741bQY.781bQo_7w11bQtz793WOj.71",
  "k.7X2l.771bQd.7m11bQt_783WOz.71..7X2_.7oC1uPwi821uPxi821uPkj8y11uPjk821uPlk821uPkk8l11uPam851uPf",
  "m831uPim8O1uPan821uPcn8N1uPXo871uPao821uPdo831uPfo851uPjp8K1uPYp831uPmp811uPnp8D1uPqp811uPrp831u",
  "Pup811uPvp831uPWq811uPXq811uPWt811uPXt851uPaq811uPbq831uPeq811uPfq8A1uPYt811uPZt8G1uPir861uPjr81",
  "1uPkr821uPlr871uPgt811uPht811uPit811uPjt8ni31vaCqaC51vaCiYC21vaCkYC21vaCmYC21vaCoYC21vaCqYC21vaC",
  "sYC21vaCuYC21vaCwYC21vaCyYC21vaC.YC21vaCWZC21vaCYZC31vaCbZC21vaCdZC21vaCfZC72vaCmZC1nZC32vaCpZC1",
  "qZC32vaCsZC1tZC32vaCvZC1wZC32vaCyZC1zZCY11vaC.aC91vaCqdC51vaCibC21vaCkbC21vaCmbC21vaCobC21vaCqbC",
  "21vaCsbC21vaCubC21vaCwbC21vaCybC21vaC.bC21vaCWcC21vaCYcC31vaCbcC21vaCdcC21vaCfcC72vaCmcC1ncC32va",
  "CpcC1qcC32vaCscC1tcC32vaCvcC1wcC32vaCycC1zcCK1vaCtdC11vaCudC11vaCvdC11vaCwdCB1vaC.dCyyt11wba2waa",
  "221wba2yaa2A1wba2hba2i41dfa2kfa211dfa2lfa2rG2.va2hwa2Piwa2oB3mbb2ybb2Axbb23.bb2_71ljb2wjb211ljb2",
  "xjb2yR1mfc2ufc2"]

def compositions : List (Nat × Nat × Nat) :=
  let rec go : Nat → Nat → Nat → Nat → List Nat → List (Nat × Nat × Nat)
    | 0, _, _, _, _ => []
    | fuel + 1, first, second, left + 1, gap :: composite :: rest =>
      (first, second + gap, composite) :: go fuel first (second + gap) left rest
    | fuel + 1, first, _, 0, gap :: count :: rest => go fuel (first + gap) 0 count rest
    | _, _, _, _, _ => []
  let ns := numbers compositionText
  go ns.length 0 0 0 ns

def compose? (first second : Nat) : Option Nat :=
  (compositions.find? fun c => c.1 == first && c.2.1 == second).map fun c => c.2.2

end ApiContract.Unicode
