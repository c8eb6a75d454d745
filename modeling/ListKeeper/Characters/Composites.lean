/-! Letters that are composed of a letter and a mark. -/
namespace ListKeeper
namespace Characters

/-- Each mark with pairs of a letter and what it becomes with the mark. -/
def composites : List (Nat × String) := [
  (768, "AÀEÈIÌNǸOÒUÙWẀYỲaàeèiìnǹoòuùwẁyỳ\u00a8\u1fedÂẦÊỀÔỒÜǛâầêềôồüǜĂẰăằĒḔēḕŌṐōṑƠỜơờƯỪưừΑᾺΕῈΗῊΙῚΟῸΥῪΩῺαὰεὲηὴιὶοὸυὺωὼϊῒϋῢЕЀИЍеѐиѝἀἂἁἃἈἊἉἋἐἒἑἓἘἚἙἛἠἢἡἣἨἪἩἫἰἲἱἳἸἺἹἻὀὂὁὃὈὊὉὋὐὒὑὓὙὛὠὢὡὣὨὪὩὫ\u1fbf\u1fcd\u1ffe\u1fdd"),
  (769, "AÁCĆEÉGǴIÍKḰLĹMḾNŃOÓPṔRŔSŚUÚWẂYÝZŹaácćeégǵiíkḱlĺmḿnńoópṕrŕsśuúwẃyýzź\u00a8\u0385ÂẤÅǺÆǼÇḈÊẾÏḮÔỐÕṌØǾÜǗâấåǻæǽçḉêếïḯôốõṍøǿüǘĂẮăắĒḖēḗŌṒōṓŨṸũṹƠỚơớƯỨưứΑΆΕΈΗΉΙΊΟΌΥΎΩΏαάεέηήιίοόυύωώϊΐϋΰϒϓГЃКЌгѓкќἀἄἁἅἈἌἉἍἐἔἑἕἘἜἙἝἠἤἡἥἨἬἩἭἰἴἱἵἸἼἹἽὀὄὁὅὈὌὉὍὐὔὑὕὙὝὠὤὡὥὨὬὩὭ\u1fbf\u1fce\u1ffe\u1fde"),
  (770, "AÂCĈEÊGĜHĤIÎJĴOÔSŜUÛWŴYŶZẐaâcĉeêgĝhĥiîjĵoôsŝuûwŵyŷzẑẠẬạậẸỆẹệỌỘọộ"),
  (771, "AÃEẼIĨNÑOÕUŨVṼYỸaãeẽiĩnñoõuũvṽyỹÂẪÊỄÔỖâẫêễôỗĂẴăẵƠỠơỡƯỮưữ"),
  (772, "AĀEĒGḠIĪOŌUŪYȲaāeēgḡiīoōuūyȳÄǞÆǢÕȬÖȪÜǕäǟæǣõȭöȫüǖǪǬǫǭȦǠȧǡȮȰȯȱΑᾹΙῙΥῩαᾱιῑυῡИӢУӮиӣуӯḶḸḷḹṚṜṛṝ"),
  (774, "AĂEĔGĞIĬOŎUŬaăeĕgğiĭoŏuŭȨḜȩḝΑᾸΙῘΥῨαᾰιῐυῠАӐЕӖЖӁИЙУЎаӑеӗжӂийуўẠẶạặ"),
  (775, "AȦBḂCĊDḊEĖFḞGĠHḢIİMṀNṄOȮPṖRṘSṠTṪWẆXẊYẎZŻaȧbḃcċdḋeėfḟgġhḣmṁnṅoȯpṗrṙsṡtṫwẇxẋyẏzżŚṤśṥŠṦšṧſẛṢṨṣṩ"),
  (776, "AÄEËHḦIÏOÖUÜWẄXẌYŸaäeëhḧiïoötẗuüwẅxẍyÿÕṎõṏŪṺūṻΙΪΥΫιϊυϋϒϔІЇАӒЕЁЖӜЗӞИӤОӦУӰЧӴЫӸЭӬаӓеёжӝзӟиӥоӧуӱчӵыӹэӭіїӘӚәӛӨӪөӫ"),
  (777, "AẢEẺIỈOỎUỦYỶaảeẻiỉoỏuủyỷÂẨÊỂÔỔâẩêểôổĂẲăẳƠỞơởƯỬưử"), (778, "AÅUŮaåuůwẘyẙ"),
  (779, "OŐUŰoőuűУӲуӳ"),
  (780, "AǍCČDĎEĚGǦHȞIǏKǨLĽNŇOǑRŘSŠTŤUǓZŽaǎcčdďeěgǧhȟiǐjǰkǩlľnňoǒrřsštťuǔzžÜǙüǚƷǮʒǯ"),
  (783, "AȀEȄIȈOȌRȐUȔaȁeȅiȉoȍrȑuȕѴѶѵѷ"), (785, "AȂEȆIȊOȎRȒUȖaȃeȇiȋoȏrȓuȗ"),
  (787, "ΑἈΕἘΗἨΙἸΟὈΩὨαἀεἐηἠιἰοὀρῤυὐωὠ"), (788, "ΑἉΕἙΗἩΙἹΟὉΡῬΥὙΩὩαἁεἑηἡιἱοὁρῥυὑωὡ"),
  (795, "OƠUƯoơuư"),
  (803, "AẠBḄDḌEẸHḤIỊKḲLḶMṂNṆOỌRṚSṢTṬUỤVṾWẈYỴZẒaạbḅdḍeẹhḥiịkḳlḷmṃnṇoọrṛsṣtṭuụvṿwẉyỵzẓƠỢơợƯỰưự"),
  (804, "UṲuṳ"), (805, "AḀaḁ"), (806, "SȘTȚsștț"),
  (807, "CÇDḐEȨGĢHḨKĶLĻNŅRŖSŞTŢcçdḑeȩgģhḩkķlļnņrŗsştţ"), (808, "AĄEĘIĮOǪUŲaąeęiįoǫuų"),
  (813, "DḒEḘLḼNṊTṰUṶdḓeḙlḽnṋtṱuṷ"), (814, "HḪhḫ"), (816, "EḚIḬUṴeḛiḭuṵ"),
  (817, "BḆDḎKḴLḺNṈRṞTṮZẔbḇdḏhẖkḵlḻnṉrṟtṯzẕ"),
  (824, "<≮=≠>≯←↚→↛↔↮⇐⇍⇒⇏⇔⇎∃∄∈∉∋∌∣∤∥∦∼≁≃≄≅≇≈≉≍≭≡≢≤≰≥≱≲≴≳≵≶≸≷≹≺⊀≻⊁≼⋠≽⋡⊂⊄⊃⊅⊆⊈⊇⊉⊑⋢⊒⋣⊢⊬⊨⊭⊩⊮⊫⊯⊲⋪⊳⋫⊴⋬⊵⋭"),
  (834, "\u00a8\u1fc1αᾶηῆιῖυῦωῶϊῗϋῧἀἆἁἇἈἎἉἏἠἦἡἧἨἮἩἯἰἶἱἷἸἾἹἿὐὖὑὗὙὟὠὦὡὧὨὮὩὯ\u1fbf\u1fcf\u1ffe\u1fdf"),
  (837, "ΑᾼΗῌΩῼάᾴήῄαᾳηῃωῳώῴἀᾀἁᾁἂᾂἃᾃἄᾄἅᾅἆᾆἇᾇἈᾈἉᾉἊᾊἋᾋἌᾌἍᾍἎᾎἏᾏἠᾐἡᾑἢᾒἣᾓἤᾔἥᾕἦᾖἧᾗἨᾘἩᾙἪᾚἫᾛἬᾜἭᾝἮᾞἯᾟὠᾠὡᾡὢᾢὣᾣὤᾤὥᾥὦᾦὧᾧὨᾨὩᾩὪᾪὫᾫὬᾬὭᾭὮᾮὯᾯὰᾲὴῂὼῲᾶᾷῆῇῶῷ"),
  (1619, "\u0627\u0622"),
  (1620, "\u0627\u0623\u0648\u0624\u064a\u0626\u06c1\u06c2\u06d2\u06d3\u06d5\u06c0"),
  (1621, "\u0627\u0625"), (2364, "नऩरऱळऴ"), (2494, "\u09c7\u09cb"), (2519, "\u09c7\u09cc"),
  (2878, "\u0b47\u0b4b"), (2902, "\u0b47\u0b48"), (2903, "\u0b47\u0b4c"),
  (3006, "\u0bc6\u0bca\u0bc7\u0bcb"), (3031, "ஒஔ\u0bc6\u0bcc"), (3158, "\u0c46\u0c48"),
  (3266, "\u0cc6\u0cca"), (3285, "\u0cbf\u0cc0\u0cc6\u0cc7\u0cca\u0ccb"), (3286, "\u0cc6\u0cc8"),
  (3390, "\u0d46\u0d4a\u0d47\u0d4b"), (3415, "\u0d46\u0d4c"), (3530, "\u0dd9\u0dda\u0ddc\u0ddd"),
  (3535, "\u0dd9\u0ddc"), (3551, "\u0dd9\u0dde"), (4142, "ဥဦ"),
  (6965, "ᬅᬆᬇᬈᬉᬊᬋᬌᬍᬎᬑᬒ\u1b3a\u1b3b\u1b3c\u1b3d\u1b3e\u1b40\u1b3f\u1b41\u1b42\u1b43"),
  (12441, "うゔかがきぎくぐけげこごさざしじすずせぜそぞただちぢつづてでとどはばひびふぶへべほぼ\u309d\u309eウヴカガキギクグケゲコゴサザシジスズセゼソゾタダチヂツヅテデトドハバヒビフブヘベホボワヷヰヸヱヹヲヺ\u30fd\u30fe"),
  (12442, "はぱひぴふぷへぺほぽハパヒピフプヘペホポ"), (69818, "𑂙𑂚𑂛𑂜𑂥𑂫"), (69927, "𑄱𑄮𑄲𑄯"), (70462, "𑍇𑍋"),
  (70487, "𑍇𑍌"), (70832, "𑒹𑒼"), (70842, "𑒹𑒻"), (70845, "𑒹𑒾"), (71087, "𑖸𑖺𑖹𑖻"), (71984, "𑤵𑤸")]

def pairs : List Char → List (Char × Char)
  | a :: b :: cs => (a, b) :: pairs cs
  | _ => []

def composite? (a b : Char) : Option Char :=
  match composites.find? fun m => m.1 == b.toNat with
  | some m => ((pairs m.2.toList).find? fun p => p.1 == a).map (·.2)
  | none => none

def parts? (c : Char) : Option (Char × Char) :=
  composites.findSome? fun m =>
    ((pairs m.2.toList).find? fun p => p.2 == c).map fun p => (p.1, Char.ofNat m.1)

end Characters
end ListKeeper
