/-! How characters are folded in the names of hosts: capital letters to small ones, and variants of a
letter or a figure to its plain form. -/
namespace ListKeeper
namespace Characters

/-- A run of characters that are folded to those at a fixed distance: the first of them, how many there
are, how far apart they stand, and the distance. -/
structure Shift where
  first : Nat
  count : Nat
  step : Nat
  offset : Int

def shifts : List Shift := [
  ⟨192, 23, 1, 32⟩, ⟨216, 7, 1, 32⟩, ⟨256, 24, 2, 1⟩, ⟨321, 4, 2, 1⟩, ⟨330, 23, 2, 1⟩,
  ⟨461, 8, 2, 1⟩, ⟨478, 9, 2, 1⟩, ⟨504, 20, 2, 1⟩, ⟨546, 9, 2, 1⟩, ⟨582, 5, 2, 1⟩,
  ⟨913, 17, 1, 32⟩, ⟨931, 9, 1, 32⟩, ⟨984, 12, 2, 1⟩, ⟨1024, 16, 1, 80⟩, ⟨1040, 32, 1, 32⟩,
  ⟨1120, 17, 2, 1⟩, ⟨1162, 27, 2, 1⟩, ⟨1217, 7, 2, 1⟩, ⟨1232, 48, 2, 1⟩, ⟨1329, 38, 1, 48⟩,
  ⟨4256, 38, 1, 7264⟩, ⟨5112, 6, 1, -8⟩, ⟨7312, 43, 1, -3008⟩, ⟨7475, 8, 1, -7372⟩,
  ⟨7598, 4, 1, -6972⟩, ⟨7680, 75, 2, 1⟩, ⟨7840, 48, 2, 1⟩, ⟨7944, 8, 1, -8⟩, ⟨7960, 6, 1, -8⟩,
  ⟨7976, 8, 1, -8⟩, ⟨7992, 8, 1, -8⟩, ⟨8008, 6, 1, -8⟩, ⟨8025, 4, 2, -8⟩, ⟨8040, 8, 1, -8⟩,
  ⟨8308, 6, 1, -8256⟩, ⟨8320, 10, 1, -8272⟩, ⟨8342, 4, 1, -8235⟩, ⟨8501, 4, 1, -7013⟩,
  ⟨9312, 9, 1, -9263⟩, ⟨9398, 26, 1, -9301⟩, ⟨9424, 26, 1, -9327⟩, ⟨11264, 48, 1, 48⟩,
  ⟨11392, 50, 2, 1⟩, ⟨12602, 6, 1, -8074⟩, ⟨12613, 10, 1, -8252⟩, ⟨12623, 21, 1, -8174⟩,
  ⟨12664, 5, 1, -8269⟩, ⟨12905, 5, 1, -8539⟩, ⟨13028, 6, 1, -538⟩, ⟨13038, 5, 1, -528⟩,
  ⟨13045, 6, 1, -525⟩, ⟨13051, 4, 1, -524⟩, ⟨42560, 23, 2, 1⟩, ⟨42624, 14, 2, 1⟩,
  ⟨42786, 7, 2, 1⟩, ⟨42802, 31, 2, 1⟩, ⟨42878, 5, 2, 1⟩, ⟨42902, 10, 2, 1⟩, ⟨42932, 8, 2, 1⟩,
  ⟨42956, 8, 2, 1⟩, ⟨43888, 80, 1, -38864⟩, ⟨65089, 4, 1, -52789⟩, ⟨65281, 32, 1, -65248⟩,
  ⟨65313, 26, 1, -65216⟩, ⟨65339, 36, 1, -65248⟩, ⟨65413, 6, 1, -52923⟩, ⟨65423, 5, 1, -52913⟩,
  ⟨65430, 6, 1, -52910⟩, ⟨65450, 6, 1, -60922⟩, ⟨65461, 10, 1, -61100⟩, ⟨65474, 6, 1, -61025⟩,
  ⟨65482, 6, 1, -61027⟩, ⟨65490, 6, 1, -61029⟩, ⟨65513, 4, 1, -56921⟩, ⟨66560, 40, 1, 40⟩,
  ⟨66736, 36, 1, 40⟩, ⟨66928, 11, 1, 39⟩, ⟨66940, 15, 1, 39⟩, ⟨66956, 7, 1, 39⟩,
  ⟨68736, 51, 1, 64⟩, ⟨68944, 22, 1, 32⟩, ⟨71840, 32, 1, 32⟩, ⟨93760, 32, 1, 32⟩,
  ⟨93856, 25, 1, 27⟩, ⟨117974, 26, 1, -117877⟩, ⟨118000, 10, 1, -117952⟩,
  ⟨119808, 26, 1, -119711⟩, ⟨119834, 26, 1, -119737⟩, ⟨119860, 26, 1, -119763⟩,
  ⟨119886, 7, 1, -119789⟩, ⟨119894, 18, 1, -119789⟩, ⟨119912, 26, 1, -119815⟩,
  ⟨119938, 26, 1, -119841⟩, ⟨119977, 4, 1, -119867⟩, ⟨119982, 8, 1, -119867⟩,
  ⟨119990, 4, 1, -119893⟩, ⟨119997, 7, 1, -119893⟩, ⟨120005, 11, 1, -119893⟩,
  ⟨120016, 26, 1, -119919⟩, ⟨120042, 26, 1, -119945⟩, ⟨120071, 4, 1, -119971⟩,
  ⟨120077, 8, 1, -119971⟩, ⟨120086, 7, 1, -119971⟩, ⟨120094, 26, 1, -119997⟩,
  ⟨120123, 4, 1, -120023⟩, ⟨120128, 5, 1, -120023⟩, ⟨120138, 7, 1, -120023⟩,
  ⟨120146, 26, 1, -120049⟩, ⟨120172, 26, 1, -120075⟩, ⟨120198, 26, 1, -120101⟩,
  ⟨120224, 26, 1, -120127⟩, ⟨120250, 26, 1, -120153⟩, ⟨120276, 26, 1, -120179⟩,
  ⟨120302, 26, 1, -120205⟩, ⟨120328, 26, 1, -120231⟩, ⟨120354, 26, 1, -120257⟩,
  ⟨120380, 26, 1, -120283⟩, ⟨120406, 26, 1, -120309⟩, ⟨120432, 26, 1, -120335⟩,
  ⟨120458, 26, 1, -120361⟩, ⟨120488, 17, 1, -119543⟩, ⟨120506, 7, 1, -119543⟩,
  ⟨120514, 17, 1, -119569⟩, ⟨120532, 7, 1, -119569⟩, ⟨120546, 17, 1, -119601⟩,
  ⟨120564, 7, 1, -119601⟩, ⟨120572, 17, 1, -119627⟩, ⟨120590, 7, 1, -119627⟩,
  ⟨120604, 17, 1, -119659⟩, ⟨120622, 7, 1, -119659⟩, ⟨120630, 17, 1, -119685⟩,
  ⟨120648, 7, 1, -119685⟩, ⟨120662, 17, 1, -119717⟩, ⟨120680, 7, 1, -119717⟩,
  ⟨120688, 17, 1, -119743⟩, ⟨120706, 7, 1, -119743⟩, ⟨120720, 17, 1, -119775⟩,
  ⟨120738, 7, 1, -119775⟩, ⟨120746, 17, 1, -119801⟩, ⟨120764, 7, 1, -119801⟩,
  ⟨120782, 10, 1, -120734⟩, ⟨120792, 10, 1, -120744⟩, ⟨120802, 10, 1, -120754⟩,
  ⟨120812, 10, 1, -120764⟩, ⟨120822, 10, 1, -120774⟩, ⟨122928, 9, 1, -121856⟩,
  ⟨122940, 11, 1, -121854⟩, ⟨122961, 9, 1, -121889⟩, ⟨122975, 6, 1, -121884⟩, ⟨125184, 34, 1, 34⟩,
  ⟨126474, 4, 1, -124871⟩, ⟨126506, 4, 1, -124903⟩, ⟨127280, 26, 1, -127183⟩,
  ⟨130032, 10, 1, -129984⟩]

/-- Runs of characters with what each is folded to, one on a line. -/
def foldedRuns : List (Nat × String) := [
  (160, " "), (168, " \u0308"), (170, "a"), (173, ""), (175, " \u0304"),
  (178, "2\n3\n \u0301\nμ"), (184, " \u0327\n1\no"), (188, "1⁄4\n1⁄2\n3⁄4"), (304, "i\u0307"),
  (306, "ij\nij\nĵ"), (310, "ķ"), (313, "ĺ"), (315, "ļ"), (317, "ľ"), (319, "l·\nl·"),
  (329, "\u02bcn"), (376, "ÿ\nź"), (379, "ż"), (381, "ž"), (383, "s"), (385, "ɓ\nƃ"), (388, "ƅ"),
  (390, "ɔ\nƈ"), (393, "ɖ\nɗ\nƌ"), (398, "ǝ\nə\nɛ\nƒ"), (403, "ɠ\nɣ"), (406, "ɩ\nɨ\nƙ"),
  (412, "ɯ\nɲ"), (415, "ɵ\nơ"), (418, "ƣ"), (420, "ƥ"), (422, "ʀ\nƨ"), (425, "ʃ"), (428, "ƭ"),
  (430, "ʈ\nư"), (433, "ʊ\nʋ\nƴ"), (437, "ƶ"), (439, "ʒ\nƹ"), (444, "ƽ"),
  (452, "dž\ndž\ndž\nlj\nlj\nlj\nnj\nnj\nnj"), (497, "dz\ndz\ndz\nǵ"), (502, "ƕ\nƿ"), (544, "ƞ"),
  (570, "ⱥ\nȼ"), (573, "ƚ\nⱦ"), (577, "ɂ"), (579, "ƀ\nʉ\nʌ"), (688, "h\nɦ\nj\nr\nɹ\nɻ\nʁ\nw\ny"),
  (728, " \u0306\n \u0307\n \u030a\n \u0328\n \u0303\n \u030b"), (736, "ɣ\nl\ns\nx\nʕ"),
  (832, "\u0300\n\u0301"), (835, "\u0313\n\u0308\u0301\nι"), (847, ""), (880, "ͱ"), (882, "ͳ"),
  (884, "\u02b9"), (886, "ͷ"), (890, " ι"), (894, ";\nϳ"),
  (900, " \u0301\n \u0308\u0301\nά\n·\nέ\nή\nί"), (908, "ό"), (910, "ύ\nώ"),
  (975, "ϗ\nβ\nθ\nυ\nύ\nϋ\nφ\nπ"), (1008, "κ\nρ\nσ"), (1012, "θ\nε"), (1015, "ϸ"), (1017, "σ\nϻ"),
  (1021, "ͻ\nͼ\nͽ"), (1216, "ӏ"), (1415, "եւ"),
  (1653, "\u0627\u0674\n\u0648\u0674\n\u06c7\u0674\n\u064a\u0674"),
  (2392, "क\u093c\nख\u093c\nग\u093c\nज\u093c\nड\u093c\nढ\u093c\nफ\u093c\nय\u093c"),
  (2524, "ড\u09bc\nঢ\u09bc"), (2527, "য\u09bc"), (2611, "ਲ\u0a3c"), (2614, "ਸ\u0a3c"),
  (2649, "ਖ\u0a3c\nਗ\u0a3c\nਜ\u0a3c"), (2654, "ਫ\u0a3c"), (2908, "ଡ\u0b3c\nଢ\u0b3c"),
  (3635, "\u0e4dา"), (3763, "\u0ecdາ"), (3804, "ຫນ\nຫມ"), (3852, "་"), (3907, "ག\u0fb7"),
  (3917, "ཌ\u0fb7"), (3922, "ད\u0fb7"), (3927, "བ\u0fb7"), (3932, "ཛ\u0fb7"), (3945, "ཀ\u0fb5"),
  (3955, "\u0f71\u0f72"),
  (3957, "\u0f71\u0f74\n\u0fb2\u0f80\n\u0fb2\u0f71\u0f80\n\u0fb3\u0f80\n\u0fb3\u0f71\u0f80"),
  (3969, "\u0f71\u0f80"), (3987, "\u0f92\u0fb7"), (3997, "\u0f9c\u0fb7"), (4002, "\u0fa1\u0fb7"),
  (4007, "\u0fa6\u0fb7"), (4012, "\u0fab\u0fb7"), (4025, "\u0f90\u0fb5"), (4295, "ⴧ"),
  (4301, "ⴭ"), (4348, "ნ"), (4447, "\n"), (6068, "\n"), (6155, "\n\n\n\n"),
  (7296, "в\nд\nо\nс\nт\nт\nъ\nѣ\nꙋ\n\u1c8a"), (7357, "ჽ\nჾ\nჿ"), (7468, "a\næ\nb"),
  (7472, "d\ne\nǝ"), (7484, "o\nȣ\np\nr\nt\nu\nw\na\nɐ\nɑ\nᴂ\nb\nd\ne\nə\nɛ\nɜ\ng"),
  (7503, "k\nm\nŋ\no\nɔ\nᴖ\nᴗ\np\nt\nu\nᴝ\nɯ\nv\nᴥ\nβ\nγ\nδ\nφ\nχ\ni\nr\nu\nv\nβ\nγ\nρ\nφ\nχ"),
  (7544, "н"), (7579, "ɒ\nc\nɕ\nð\nɜ\nf\nɟ\nɡ\nɥ\nɨ\nɩ\nɪ\nᵻ\nʝ\nɭ\nᶅ\nʟ\nɱ\nɰ"),
  (7602, "ɸ\nʂ\nʃ\nƫ\nʉ\nʊ\nᴜ\nʋ\nʌ\nz\nʐ\nʑ\nʒ\nθ"), (7834, "a\u02be\nṡ"), (7838, "ß"),
  (8049, "ά"), (8051, "έ"), (8053, "ή"), (8055, "ί"), (8057, "ό"), (8059, "ύ"), (8061, "ώ"),
  (8064, "ἀι\nἁι\nἂι\nἃι\nἄι\nἅι\nἆι\nἇι\nἀι\nἁι\nἂι\nἃι\nἄι\nἅι\nἆι\nἇι\nἠι\nἡι\nἢι\nἣι\nἤι\nἥι\nἦι\nἧι\nἠι\nἡι\nἢι\nἣι\nἤι\nἥι\nἦι\nἧι\nὠι\nὡι\nὢι\nὣι\nὤι\nὥι\nὦι\nὧι\nὠι\nὡι\nὢι\nὣι\nὤι\nὥι\nὦι\nὧι"),
  (8114, "ὰι\nαι\nάι"),
  (8119, "ᾶι\nᾰ\nᾱ\nὰ\nά\nαι\n \u0313\nι\n \u0313\n \u0342\n \u0308\u0342\nὴι\nηι\nήι"),
  (8135, "ῆι\nὲ\nέ\nὴ\nή\nηι\n \u0313\u0300\n \u0313\u0301\n \u0313\u0342"), (8147, "ΐ"),
  (8152, "ῐ\nῑ\nὶ\nί"), (8157, " \u0314\u0300\n \u0314\u0301\n \u0314\u0342"), (8163, "ΰ"),
  (8168, "ῠ\nῡ\nὺ\nύ\nῥ\n \u0308\u0300\n \u0308\u0301\n\x60"), (8178, "ὼι\nωι\nώι"),
  (8183, "ῶι\nὸ\nό\nὼ\nώ\nωι\n \u0301\n \u0314"), (8192, " \n \n \n \n \n \n \n \n \n \n \n"),
  (8209, "‐"), (8215, " \u0333"), (8239, " "), (8243, "′′\n′′′"), (8246, "‵‵\n‵‵‵"), (8252, "!!"),
  (8254, " \u0305"), (8263, "??\n?!\n!?"), (8279, "′′′′"), (8287, " \n\n\n\n\n"),
  (8298, "\n\n\n\n\n\n0\ni"), (8314, "+\n−\n=\n(\n)\nn"), (8330, "+\n−\n=\n(\n)"),
  (8336, "a\ne\no\nx\nə\nh"), (8346, "p\ns\nt"), (8360, "rs"), (8448, "a/c\na/s\nc\n°c"),
  (8453, "c/o\nc/u\nɛ"), (8457, "°f\ng\nh\nh\nh\nh\nħ\ni\ni\nl\nl"), (8469, "n\nno"),
  (8473, "p\nq\nr\nr\nr"), (8480, "sm\ntel\ntm"), (8484, "z"), (8486, "ω"), (8488, "z"),
  (8490, "k\nå\nb\nc"), (8495, "e\ne\nf\nⅎ\nm\no"), (8505, "i"), (8507, "fax\nπ\nγ\nγ\nπ\n∑"),
  (8517, "d\nd\ne\ni\nj"),
  (8528, "1⁄7\n1⁄9\n1⁄10\n1⁄3\n2⁄3\n1⁄5\n2⁄5\n3⁄5\n4⁄5\n1⁄6\n5⁄6\n1⁄8\n3⁄8\n5⁄8\n7⁄8\n1⁄\ni\nii\niii\niv\nv\nvi\nvii\nviii\nix\nx\nxi\nxii\nl\nc\nd\nm\ni\nii\niii\niv\nv\nvi\nvii\nviii\nix\nx\nxi\nxii\nl\nc\nd\nm"),
  (8579, "ↄ"), (8585, "0⁄3"), (8748, "∫∫\n∫∫∫"), (8751, "∮∮\n∮∮∮"), (9001, "〈\n〉"),
  (9321, "10\n11\n12\n13\n14\n15\n16\n17\n18\n19\n20\n(1)\n(2)\n(3)\n(4)\n(5)\n(6)\n(7)\n(8)\n(9)\n(10)\n(11)\n(12)\n(13)\n(14)\n(15)\n(16)\n(17)\n(18)\n(19)\n(20)"),
  (9372, "(a)\n(b)\n(c)\n(d)\n(e)\n(f)\n(g)\n(h)\n(i)\n(j)\n(k)\n(l)\n(m)\n(n)\n(o)\n(p)\n(q)\n(r)\n(s)\n(t)\n(u)\n(v)\n(w)\n(x)\n(y)\n(z)"),
  (9450, "0"), (10764, "∫∫∫∫"), (10868, "::=\n==\n==="), (10972, "⫝\u0338"), (11360, "ⱡ"),
  (11362, "ɫ\nᵽ\nɽ"), (11367, "ⱨ"), (11369, "ⱪ"), (11371, "ⱬ"), (11373, "ɑ\nɱ\nɐ\nɒ"),
  (11378, "ⱳ"), (11381, "ⱶ"), (11388, "j\nv\nȿ\nɀ"), (11499, "ⳬ"), (11501, "ⳮ"), (11506, "ⳳ"),
  (11631, "ⵡ"), (11935, "母"), (12019, "龟"),
  (12032, "一\n丨\n丶\n丿\n乙\n亅\n二\n亠\n人\n儿\n入\n八\n冂\n冖\n冫\n几\n凵\n刀\n力\n勹\n匕\n匚\n匸\n十\n卜\n卩\n厂\n厶\n又\n口\n囗\n土\n士\n夂\n夊\n夕\n大\n女\n子\n宀\n寸\n小\n尢\n尸\n屮\n山\n巛\n工\n己\n巾\n干\n幺\n广\n廴\n廾\n弋\n弓\n彐\n彡\n彳\n心\n戈\n戶\n手\n支\n攴\n文\n斗\n斤\n方\n无\n日\n曰\n月\n木\n欠\n止\n歹\n殳\n毋\n比\n毛\n氏\n气\n水\n火\n爪\n父\n爻\n爿\n片\n牙\n牛\n犬\n玄\n玉\n瓜\n瓦\n甘\n生\n用\n田\n疋\n疒\n癶\n白\n皮\n皿\n目\n矛\n矢\n石\n示\n禸\n禾\n穴\n立\n竹\n米\n糸\n缶\n网\n羊\n羽\n老\n而\n耒\n耳\n聿\n肉\n臣\n自\n至\n臼\n舌\n舛\n舟\n艮\n色\n艸\n虍\n虫\n血\n行\n衣\n襾\n見\n角\n言\n谷\n豆\n豕\n豸\n貝\n赤\n走\n足\n身\n車\n辛\n辰\n辵\n邑\n酉\n釆\n里\n金\n長\n門\n阜\n隶\n隹\n雨\n靑\n非\n面\n革\n韋\n韭\n音\n頁\n風\n飛\n食\n首\n香\n馬\n骨\n高\n髟\n鬥\n鬯\n鬲\n鬼\n魚\n鳥\n鹵\n鹿\n麥\n麻\n黃\n黍\n黑\n黹\n黽\n鼎\n鼓\n鼠\n鼻\n齊\n齒\n龍\n龜\n龠"),
  (12288, " "), (12290, "."), (12342, "〒"), (12344, "十\n卄\n卅"), (12443, " \u3099\n \u309a"),
  (12447, "より"), (12543, "コト"), (12593, "ᄀ\nᄁ\nᆪ\nᄂ\nᆬ\nᆭ\nᄃ\nᄄ\nᄅ"), (12608, "ᄚ\nᄆ\nᄇ\nᄈ\nᄡ"),
  (12644, "\nᄔ\nᄕ\nᇇ\nᇈ\nᇌ\nᇎ\nᇓ\nᇗ\nᇙ\nᄜ\nᇝ\nᇟ\nᄝ\nᄞ\nᄠ\nᄢ\nᄣ\nᄧ\nᄩ"),
  (12669, "ᄲ\nᄶ\nᅀ\nᅇ\nᅌ\nᇱ\nᇲ\nᅗ\nᅘ\nᅙ\nᆄ\nᆅ\nᆈ\nᆑ\nᆒ\nᆔ\nᆞ\nᆡ"),
  (12690, "一\n二\n三\n四\n上\n中\n下\n甲\n乙\n丙\n丁\n天\n地\n人"),
  (12800, "(ᄀ)\n(ᄂ)\n(ᄃ)\n(ᄅ)\n(ᄆ)\n(ᄇ)\n(ᄉ)\n(ᄋ)\n(ᄌ)\n(ᄎ)\n(ᄏ)\n(ᄐ)\n(ᄑ)\n(ᄒ)\n(가)\n(나)\n(다)\n(라)\n(마)\n(바)\n(사)\n(아)\n(자)\n(차)\n(카)\n(타)\n(파)\n(하)\n(주)\n(오전)\n(오후)"),
  (12832, "(一)\n(二)\n(三)\n(四)\n(五)\n(六)\n(七)\n(八)\n(九)\n(十)\n(月)\n(火)\n(水)\n(木)\n(金)\n(土)\n(日)\n(株)\n(有)\n(社)\n(名)\n(特)\n(財)\n(祝)\n(労)\n(代)\n(呼)\n(学)\n(監)\n(企)\n(資)\n(協)\n(祭)\n(休)\n(自)\n(至)\n問\n幼\n文\n箏"),
  (12880, "pte\n21\n22\n23\n24\n25\n26\n27\n28\n29\n30\n31\n32\n33\n34\n35\nᄀ\nᄂ\nᄃ\nᄅ\nᄆ\nᄇ\nᄉ\nᄋ\nᄌ"),
  (12910, "가\n나\n다\n라\n마\n바\n사\n아\n자\n차\n카\n타\n파\n하\n참고\n주의\n우"),
  (12928, "一\n二\n三\n四\n五\n六\n七\n八\n九\n十\n月\n火\n水\n木\n金\n土\n日\n株\n有\n社\n名\n特\n財\n祝\n労\n秘\n男\n女\n適\n優\n印\n注\n項\n休\n写\n正\n上\n中\n下\n左\n右\n医\n宗\n学\n監\n企\n資\n協\n夜\n36\n37\n38\n39\n40\n41\n42\n43\n44\n45\n46\n47\n48\n49\n50\n1月\n2月\n3月\n4月\n5月\n6月\n7月\n8月\n9月\n10月\n11月\n12月\nhg\nerg\nev\nltd\nア\nイ\nウ\nエ\nオ\nカ\nキ\nク\nケ\nコ\nサ\nシ\nス\nセ\nソ\nタ\nチ\nツ\nテ\nト"),
  (13034, "ヒ\nフ\nヘ\nホ"), (13043, "ヤ\nユ"),
  (13055, "令和\nアパ\u30fcト\nアルファ\nアンペア\nア\u30fcル\nイニング\nインチ\nウォン\nエスク\u30fcド\nエ\u30fcカ\u30fc\nオンス\nオ\u30fcム\nカイリ\nカラット\nカロリ\u30fc\nガロン\nガンマ\nギガ\nギニ\u30fc\nキュリ\u30fc\nギルダ\u30fc\nキロ\nキログラム\nキロメ\u30fcトル\nキロワット\nグラム\nグラムトン\nクルゼイロ\nクロ\u30fcネ\nケ\u30fcス\nコルナ\nコ\u30fcポ\nサイクル\nサンチ\u30fcム\nシリング\nセンチ\nセント\nダ\u30fcス\nデシ\nドル\nトン\nナノ\nノット\nハイツ\nパ\u30fcセント\nパ\u30fcツ\nバ\u30fcレル\nピアストル\nピクル\nピコ\nビル\nファラッド\nフィ\u30fcト\nブッシェル\nフラン\nヘクタ\u30fcル\nペソ\nペニヒ\nヘルツ\nペンス\nペ\u30fcジ\nベ\u30fcタ\nポイント\nボルト\nホン\nポンド\nホ\u30fcル\nホ\u30fcン\nマイクロ\nマイル\nマッハ\nマルク\nマンション\nミクロン\nミリ\nミリバ\u30fcル\nメガ\nメガトン\nメ\u30fcトル\nヤ\u30fcド\nヤ\u30fcル\nユアン\nリットル\nリラ\nルピ\u30fc\nル\u30fcブル\nレム\nレントゲン\nワット\n0点\n1点\n2点\n3点\n4点\n5点\n6点\n7点\n8点\n9点\n10点\n11点\n12点\n13点\n14点\n15点\n16点\n17点\n18点\n19点\n20点\n21点\n22点\n23点\n24点\nhpa\nda\nau\nbar\nov\npc\ndm\ndm2\ndm3\niu\n平成\n昭和\n大正\n明治\n株式会社\npa\nna\nμa\nma\nka\nkb\nmb\ngb\ncal\nkcal\npf\nnf\nμf\nμg\nmg\nkg\nhz\nkhz\nmhz\nghz\nthz\nμl\nml\ndl\nkl\nfm\nnm\nμm\nmm\ncm\nkm\nmm2\ncm2\nm2\nkm2\nmm3\ncm3\nm3\nkm3\nm∕s\nm∕s2\npa\nkpa\nmpa\ngpa\nrad\nrad∕s\nrad∕s2\nps\nns\nμs\nms\npv\nnv\nμv\nmv\nkv\nmv\npw\nnw\nμw\nmw\nkw\nmw\nkω\nmω"),
  (13251, "bq\ncc\ncd\nc∕kg"),
  (13256, "db\ngy\nha\nhp\nin\nkk\nkm\nkt\nlm\nln\nlog\nlx\nmb\nmil\nmol\nph"),
  (13273, "ppm\npr\nsr\nsv\nwb\nv∕m\na∕m\n1日\n2日\n3日\n4日\n5日\n6日\n7日\n8日\n9日\n10日\n11日\n12日\n13日\n14日\n15日\n16日\n17日\n18日\n19日\n20日\n21日\n22日\n23日\n24日\n25日\n26日\n27日\n28日\n29日\n30日\n31日\ngal"),
  (42652, "ъ\nь"), (42864, "ꝯ"), (42873, "ꝺ"), (42875, "ꝼ"), (42877, "ᵹ"), (42891, "ꞌ"),
  (42893, "ɥ"), (42896, "ꞑ"), (42898, "ꞓ"), (42922, "ɦ\nɜ\nɡ\nɬ\nɪ"), (42928, "ʞ\nʇ\nʝ\nꭓ"),
  (42948, "ꞔ\nʂ\nᶎ\nꟈ"), (42953, "ꟊ"), (42955, "ɤ"), (42972, "ƛ"), (42993, "s\nc\nf\nq\nꟶ"),
  (43000, "ħ\nœ"), (43868, "ꜧ\nꬷ\nɫ\nꭒ"), (43881, "ʍ"),
  (63744, "豈\n更\n車\n賈\n滑\n串\n句\n龜\n龜\n契\n金\n喇\n奈\n懶\n癩\n羅\n蘿\n螺\n裸\n邏\n樂\n洛\n烙\n珞\n落\n酪\n駱\n亂\n卵\n欄\n爛\n蘭\n鸞\n嵐\n濫\n藍\n襤\n拉\n臘\n蠟\n廊\n朗\n浪\n狼\n郎\n來\n冷\n勞\n擄\n櫓\n爐\n盧\n老\n蘆\n虜\n路\n露\n魯\n鷺\n碌\n祿\n綠\n菉\n錄\n鹿\n論\n壟\n弄\n籠\n聾\n牢\n磊\n賂\n雷\n壘\n屢\n樓\n淚\n漏\n累\n縷\n陋\n勒\n肋\n凜\n凌\n稜\n綾\n菱\n陵\n讀\n拏\n樂\n諾\n丹\n寧\n怒\n率\n異\n北\n磻\n便\n復\n不\n泌\n數\n索\n參\n塞\n省\n葉\n說\n殺\n辰\n沈\n拾\n若\n掠\n略\n亮\n兩\n凉\n梁\n糧\n良\n諒\n量\n勵\n呂\n女\n廬\n旅\n濾\n礪\n閭\n驪\n麗\n黎\n力\n曆\n歷\n轢\n年\n憐\n戀\n撚\n漣\n煉\n璉\n秊\n練\n聯\n輦\n蓮\n連\n鍊\n列\n劣\n咽\n烈\n裂\n說\n廉\n念\n捻\n殮\n簾\n獵\n令\n囹\n寧\n嶺\n怜\n玲\n瑩\n羚\n聆\n鈴\n零\n靈\n領\n例\n禮\n醴\n隸\n惡\n了\n僚\n寮\n尿\n料\n樂\n燎\n療\n蓼\n遼\n龍\n暈\n阮\n劉\n杻\n柳\n流\n溜\n琉\n留\n硫\n紐\n類\n六\n戮\n陸\n倫\n崙\n淪\n輪\n律\n慄\n栗\n率\n隆\n利\n吏\n履\n易\n李\n梨\n泥\n理\n痢\n罹\n裏\n裡\n里\n離\n匿\n溺\n吝\n燐\n璘\n藺\n隣\n鱗\n麟\n林\n淋\n臨\n立\n笠\n粒\n狀\n炙\n識\n什\n茶\n刺\n切\n度\n拓\n糖\n宅\n洞\n暴\n輻\n行\n降\n見\n廓\n兀\n嗀"),
  (64016, "塚"), (64018, "晴"), (64021, "凞\n猪\n益\n礼\n神\n祥\n福\n靖\n精\n羽"), (64032, "蘒"), (64034, "諸"),
  (64037, "逸\n都"),
  (64042, "飯\n飼\n館\n鶴\n郞\n隷\n侮\n僧\n免\n勉\n勤\n卑\n喝\n嘆\n器\n塀\n墨\n層\n屮\n悔\n慨\n憎\n懲\n敏\n既\n暑\n梅\n海\n渚\n漢\n煮\n爫\n琢\n碑\n社\n祉\n祈\n祐\n祖\n祝\n禍\n禎\n穀\n突\n節\n練\n縉\n繁\n署\n者\n臭\n艹\n艹\n著\n褐\n視\n謁\n謹\n賓\n贈\n辶\n逸\n難\n響\n頻\n恵\n𤋮\n舘"),
  (64112, "並\n况\n全\n侀\n充\n冀\n勇\n勺\n喝\n啕\n喙\n嗢\n塚\n墳\n奄\n奔\n婢\n嬨\n廒\n廙\n彩\n徭\n惘\n慎\n愈\n憎\n慠\n懲\n戴\n揄\n搜\n摒\n敖\n晴\n朗\n望\n杖\n歹\n殺\n流\n滛\n滋\n漢\n瀞\n煮\n瞧\n爵\n犯\n猪\n瑱\n甆\n画\n瘝\n瘟\n益\n盛\n直\n睊\n着\n磌\n窱\n節\n类\n絛\n練\n缾\n者\n荒\n華\n蝹\n襁\n覆\n視\n調\n諸\n請\n謁\n諾\n諭\n謹\n變\n贈\n輸\n遲\n醙\n鉶\n陼\n難\n靖\n韛\n響\n頋\n頻\n鬒\n龜\n𢡊\n𢡄\n𣏕\n㮝\n䀘\n䀹\n𥉉\n𥳐\n𧻓\n齃\n龎"),
  (64256, "ff\nfi\nfl\nffi\nffl\nst\nst"), (64275, "մն\nմե\nմի\nվն\nմխ"), (64285, "\u05d9\u05b4"),
  (64287, "\u05f2\u05b7\n\u05e2\n\u05d0\n\u05d3\n\u05d4\n\u05db\n\u05dc\n\u05dd\n\u05e8\n\u05ea\n+\n\u05e9\u05c1\n\u05e9\u05c2\n\u05e9\u05bc\u05c1\n\u05e9\u05bc\u05c2\n\u05d0\u05b7\n\u05d0\u05b8\n\u05d0\u05bc\n\u05d1\u05bc\n\u05d2\u05bc\n\u05d3\u05bc\n\u05d4\u05bc\n\u05d5\u05bc\n\u05d6\u05bc"),
  (64312, "\u05d8\u05bc\n\u05d9\u05bc\n\u05da\u05bc\n\u05db\u05bc\n\u05dc\u05bc"),
  (64318, "\u05de\u05bc"), (64320, "\u05e0\u05bc\n\u05e1\u05bc"),
  (64323, "\u05e3\u05bc\n\u05e4\u05bc"),
  (64326, "\u05e6\u05bc\n\u05e7\u05bc\n\u05e8\u05bc\n\u05e9\u05bc\n\u05ea\u05bc\n\u05d5\u05b9\n\u05d1\u05bf\n\u05db\u05bf\n\u05e4\u05bf\n\u05d0\u05dc\n\u0671\n\u0671\n\u067b\n\u067b\n\u067b\n\u067b\n\u067e\n\u067e\n\u067e\n\u067e\n\u0680\n\u0680\n\u0680\n\u0680\n\u067a\n\u067a\n\u067a\n\u067a\n\u067f\n\u067f\n\u067f\n\u067f\n\u0679\n\u0679\n\u0679\n\u0679\n\u06a4\n\u06a4\n\u06a4\n\u06a4\n\u06a6\n\u06a6\n\u06a6\n\u06a6\n\u0684\n\u0684\n\u0684\n\u0684\n\u0683\n\u0683\n\u0683\n\u0683\n\u0686\n\u0686\n\u0686\n\u0686\n\u0687\n\u0687\n\u0687\n\u0687\n\u068d\n\u068d\n\u068c\n\u068c\n\u068e\n\u068e\n\u0688\n\u0688\n\u0698\n\u0698\n\u0691\n\u0691\n\u06a9\n\u06a9\n\u06a9\n\u06a9\n\u06af\n\u06af\n\u06af\n\u06af\n\u06b3\n\u06b3\n\u06b3\n\u06b3\n\u06b1\n\u06b1\n\u06b1\n\u06b1\n\u06ba\n\u06ba\n\u06bb\n\u06bb\n\u06bb\n\u06bb\n\u06c0\n\u06c0\n\u06c1\n\u06c1\n\u06c1\n\u06c1\n\u06be\n\u06be\n\u06be\n\u06be\n\u06d2\n\u06d2\n\u06d3\n\u06d3"),
  (64467, "\u06ad\n\u06ad\n\u06ad\n\u06ad\n\u06c7\n\u06c7\n\u06c6\n\u06c6\n\u06c8\n\u06c8\n\u06c7\u0674\n\u06cb\n\u06cb\n\u06c5\n\u06c5\n\u06c9\n\u06c9\n\u06d0\n\u06d0\n\u06d0\n\u06d0\n\u0649\n\u0649\n\u0626\u0627\n\u0626\u0627\n\u0626\u06d5\n\u0626\u06d5\n\u0626\u0648\n\u0626\u0648\n\u0626\u06c7\n\u0626\u06c7\n\u0626\u06c6\n\u0626\u06c6\n\u0626\u06c8\n\u0626\u06c8\n\u0626\u06d0\n\u0626\u06d0\n\u0626\u06d0\n\u0626\u0649\n\u0626\u0649\n\u0626\u0649\n\u06cc\n\u06cc\n\u06cc\n\u06cc\n\u0626\u062c\n\u0626\u062d\n\u0626\u0645\n\u0626\u0649\n\u0626\u064a\n\u0628\u062c\n\u0628\u062d\n\u0628\u062e\n\u0628\u0645\n\u0628\u0649\n\u0628\u064a\n\u062a\u062c\n\u062a\u062d\n\u062a\u062e\n\u062a\u0645\n\u062a\u0649\n\u062a\u064a\n\u062b\u062c\n\u062b\u0645\n\u062b\u0649\n\u062b\u064a\n\u062c\u062d\n\u062c\u0645\n\u062d\u062c\n\u062d\u0645\n\u062e\u062c\n\u062e\u062d\n\u062e\u0645\n\u0633\u062c\n\u0633\u062d\n\u0633\u062e\n\u0633\u0645\n\u0635\u062d\n\u0635\u0645\n\u0636\u062c\n\u0636\u062d\n\u0636\u062e\n\u0636\u0645\n\u0637\u062d\n\u0637\u0645\n\u0638\u0645\n\u0639\u062c\n\u0639\u0645\n\u063a\u062c\n\u063a\u0645\n\u0641\u062c\n\u0641\u062d\n\u0641\u062e\n\u0641\u0645\n\u0641\u0649\n\u0641\u064a\n\u0642\u062d\n\u0642\u0645\n\u0642\u0649\n\u0642\u064a\n\u0643\u0627\n\u0643\u062c\n\u0643\u062d\n\u0643\u062e\n\u0643\u0644\n\u0643\u0645\n\u0643\u0649\n\u0643\u064a\n\u0644\u062c\n\u0644\u062d\n\u0644\u062e\n\u0644\u0645\n\u0644\u0649\n\u0644\u064a\n\u0645\u062c\n\u0645\u062d\n\u0645\u062e\n\u0645\u0645\n\u0645\u0649\n\u0645\u064a\n\u0646\u062c\n\u0646\u062d\n\u0646\u062e\n\u0646\u0645\n\u0646\u0649\n\u0646\u064a\n\u0647\u062c\n\u0647\u0645\n\u0647\u0649\n\u0647\u064a\n\u064a\u062c\n\u064a\u062d\n\u064a\u062e\n\u064a\u0645\n\u064a\u0649\n\u064a\u064a\n\u0630\u0670\n\u0631\u0670\n\u0649\u0670\n \u064c\u0651\n \u064d\u0651\n \u064e\u0651\n \u064f\u0651\n \u0650\u0651\n \u0651\u0670\n\u0626\u0631\n\u0626\u0632\n\u0626\u0645\n\u0626\u0646\n\u0626\u0649\n\u0626\u064a\n\u0628\u0631\n\u0628\u0632\n\u0628\u0645\n\u0628\u0646\n\u0628\u0649\n\u0628\u064a\n\u062a\u0631\n\u062a\u0632\n\u062a\u0645\n\u062a\u0646\n\u062a\u0649\n\u062a\u064a\n\u062b\u0631\n\u062b\u0632\n\u062b\u0645\n\u062b\u0646\n\u062b\u0649\n\u062b\u064a\n\u0641\u0649\n\u0641\u064a\n\u0642\u0649\n\u0642\u064a\n\u0643\u0627\n\u0643\u0644\n\u0643\u0645\n\u0643\u0649\n\u0643\u064a\n\u0644\u0645\n\u0644\u0649\n\u0644\u064a\n\u0645\u0627\n\u0645\u0645\n\u0646\u0631\n\u0646\u0632\n\u0646\u0645\n\u0646\u0646\n\u0646\u0649\n\u0646\u064a\n\u0649\u0670\n\u064a\u0631\n\u064a\u0632\n\u064a\u0645\n\u064a\u0646\n\u064a\u0649\n\u064a\u064a\n\u0626\u062c\n\u0626\u062d\n\u0626\u062e\n\u0626\u0645\n\u0626\u0647\n\u0628\u062c\n\u0628\u062d\n\u0628\u062e\n\u0628\u0645\n\u0628\u0647\n\u062a\u062c\n\u062a\u062d\n\u062a\u062e\n\u062a\u0645\n\u062a\u0647\n\u062b\u0645\n\u062c\u062d\n\u062c\u0645\n\u062d\u062c\n\u062d\u0645\n\u062e\u062c\n\u062e\u0645\n\u0633\u062c\n\u0633\u062d\n\u0633\u062e\n\u0633\u0645\n\u0635\u062d\n\u0635\u062e\n\u0635\u0645\n\u0636\u062c\n\u0636\u062d\n\u0636\u062e\n\u0636\u0645\n\u0637\u062d\n\u0638\u0645\n\u0639\u062c\n\u0639\u0645\n\u063a\u062c\n\u063a\u0645\n\u0641\u062c\n\u0641\u062d\n\u0641\u062e\n\u0641\u0645\n\u0642\u062d\n\u0642\u0645\n\u0643\u062c\n\u0643\u062d\n\u0643\u062e\n\u0643\u0644\n\u0643\u0645\n\u0644\u062c\n\u0644\u062d\n\u0644\u062e\n\u0644\u0645\n\u0644\u0647\n\u0645\u062c\n\u0645\u062d\n\u0645\u062e\n\u0645\u0645\n\u0646\u062c\n\u0646\u062d\n\u0646\u062e\n\u0646\u0645\n\u0646\u0647\n\u0647\u062c\n\u0647\u0645\n\u0647\u0670\n\u064a\u062c\n\u064a\u062d\n\u064a\u062e\n\u064a\u0645\n\u064a\u0647\n\u0626\u0645\n\u0626\u0647\n\u0628\u0645\n\u0628\u0647\n\u062a\u0645\n\u062a\u0647\n\u062b\u0645\n\u062b\u0647\n\u0633\u0645\n\u0633\u0647\n\u0634\u0645\n\u0634\u0647\n\u0643\u0644\n\u0643\u0645\n\u0644\u0645\n\u0646\u0645\n\u0646\u0647\n\u064a\u0645\n\u064a\u0647\n\u0640\u064e\u0651\n\u0640\u064f\u0651\n\u0640\u0650\u0651\n\u0637\u0649\n\u0637\u064a\n\u0639\u0649\n\u0639\u064a\n\u063a\u0649\n\u063a\u064a\n\u0633\u0649\n\u0633\u064a\n\u0634\u0649\n\u0634\u064a\n\u062d\u0649\n\u062d\u064a\n\u062c\u0649\n\u062c\u064a\n\u062e\u0649\n\u062e\u064a\n\u0635\u0649\n\u0635\u064a\n\u0636\u0649\n\u0636\u064a\n\u0634\u062c\n\u0634\u062d\n\u0634\u062e\n\u0634\u0645\n\u0634\u0631\n\u0633\u0631\n\u0635\u0631\n\u0636\u0631\n\u0637\u0649\n\u0637\u064a\n\u0639\u0649\n\u0639\u064a\n\u063a\u0649\n\u063a\u064a\n\u0633\u0649\n\u0633\u064a\n\u0634\u0649\n\u0634\u064a\n\u062d\u0649\n\u062d\u064a\n\u062c\u0649\n\u062c\u064a\n\u062e\u0649\n\u062e\u064a\n\u0635\u0649\n\u0635\u064a\n\u0636\u0649\n\u0636\u064a\n\u0634\u062c\n\u0634\u062d\n\u0634\u062e\n\u0634\u0645\n\u0634\u0631\n\u0633\u0631\n\u0635\u0631\n\u0636\u0631\n\u0634\u062c\n\u0634\u062d\n\u0634\u062e\n\u0634\u0645\n\u0633\u0647\n\u0634\u0647\n\u0637\u0645\n\u0633\u062c\n\u0633\u062d\n\u0633\u062e\n\u0634\u062c\n\u0634\u062d\n\u0634\u062e\n\u0637\u0645\n\u0638\u0645\n\u0627\u064b\n\u0627\u064b"),
  (64848, "\u062a\u062c\u0645\n\u062a\u062d\u062c\n\u062a\u062d\u062c\n\u062a\u062d\u0645\n\u062a\u062e\u0645\n\u062a\u0645\u062c\n\u062a\u0645\u062d\n\u062a\u0645\u062e\n\u062c\u0645\u062d\n\u062c\u0645\u062d\n\u062d\u0645\u064a\n\u062d\u0645\u0649\n\u0633\u062d\u062c\n\u0633\u062c\u062d\n\u0633\u062c\u0649\n\u0633\u0645\u062d\n\u0633\u0645\u062d\n\u0633\u0645\u062c\n\u0633\u0645\u0645\n\u0633\u0645\u0645\n\u0635\u062d\u062d\n\u0635\u062d\u062d\n\u0635\u0645\u0645\n\u0634\u062d\u0645\n\u0634\u062d\u0645\n\u0634\u062c\u064a\n\u0634\u0645\u062e\n\u0634\u0645\u062e\n\u0634\u0645\u0645\n\u0634\u0645\u0645\n\u0636\u062d\u0649\n\u0636\u062e\u0645\n\u0636\u062e\u0645\n\u0637\u0645\u062d\n\u0637\u0645\u062d\n\u0637\u0645\u0645\n\u0637\u0645\u064a\n\u0639\u062c\u0645\n\u0639\u0645\u0645\n\u0639\u0645\u0645\n\u0639\u0645\u0649\n\u063a\u0645\u0645\n\u063a\u0645\u064a\n\u063a\u0645\u0649\n\u0641\u062e\u0645\n\u0641\u062e\u0645\n\u0642\u0645\u062d\n\u0642\u0645\u0645\n\u0644\u062d\u0645\n\u0644\u062d\u064a\n\u0644\u062d\u0649\n\u0644\u062c\u062c\n\u0644\u062c\u062c\n\u0644\u062e\u0645\n\u0644\u062e\u0645\n\u0644\u0645\u062d\n\u0644\u0645\u062d\n\u0645\u062d\u062c\n\u0645\u062d\u0645\n\u0645\u062d\u064a\n\u0645\u062c\u062d\n\u0645\u062c\u0645\n\u0645\u062e\u062c\n\u0645\u062e\u0645"),
  (64914, "\u0645\u062c\u062e\n\u0647\u0645\u062c\n\u0647\u0645\u0645\n\u0646\u062d\u0645\n\u0646\u062d\u0649\n\u0646\u062c\u0645\n\u0646\u062c\u0645\n\u0646\u062c\u0649\n\u0646\u0645\u064a\n\u0646\u0645\u0649\n\u064a\u0645\u0645\n\u064a\u0645\u0645\n\u0628\u062e\u064a\n\u062a\u062c\u064a\n\u062a\u062c\u0649\n\u062a\u062e\u064a\n\u062a\u062e\u0649\n\u062a\u0645\u064a\n\u062a\u0645\u0649\n\u062c\u0645\u064a\n\u062c\u062d\u0649\n\u062c\u0645\u0649\n\u0633\u062e\u0649\n\u0635\u062d\u064a\n\u0634\u062d\u064a\n\u0636\u062d\u064a\n\u0644\u062c\u064a\n\u0644\u0645\u064a\n\u064a\u062d\u064a\n\u064a\u062c\u064a\n\u064a\u0645\u064a\n\u0645\u0645\u064a\n\u0642\u0645\u064a\n\u0646\u062d\u064a\n\u0642\u0645\u062d\n\u0644\u062d\u0645\n\u0639\u0645\u064a\n\u0643\u0645\u064a\n\u0646\u062c\u062d\n\u0645\u062e\u064a\n\u0644\u062c\u0645\n\u0643\u0645\u0645\n\u0644\u062c\u0645\n\u0646\u062c\u062d\n\u062c\u062d\u064a\n\u062d\u062c\u064a\n\u0645\u062c\u064a\n\u0641\u0645\u064a\n\u0628\u062d\u064a\n\u0643\u0645\u0645\n\u0639\u062c\u0645\n\u0635\u0645\u0645\n\u0633\u062e\u064a\n\u0646\u062c\u064a"),
  (65008, "\u0635\u0644\u06d2\n\u0642\u0644\u06d2\n\u0627\u0644\u0644\u0647\n\u0627\u0643\u0628\u0631\n\u0645\u062d\u0645\u062f\n\u0635\u0644\u0639\u0645\n\u0631\u0633\u0648\u0644\n\u0639\u0644\u064a\u0647\n\u0648\u0633\u0644\u0645\n\u0635\u0644\u0649\n\u0635\u0644\u0649 \u0627\u0644\u0644\u0647 \u0639\u0644\u064a\u0647 \u0648\u0633\u0644\u0645\n\u062c\u0644 \u062c\u0644\u0627\u0644\u0647\n\u0631\u06cc\u0627\u0644"),
  (65024, "\n\n\n\n\n\n\n\n\n\n\n\n\n\n\n\n,\n、"), (65043, ":\n;\n!\n?\n〖\n〗"),
  (65073, "—\n–\n_\n_\n(\n)\n\x7b\n\x7d\n〔\n〕\n【\n】\n《\n》\n〈\n〉"),
  (65095, "[\n]\n \u0305\n \u0305\n \u0305\n \u0305\n_\n_\n_\n,\n、"),
  (65108, ";\n:\n?\n!\n—\n(\n)\n\x7b\n\x7d\n〔\n〕\n#\n&\n*\n+\n-\n<\n>\n="),
  (65128, "\\\n$\n%\n@"), (65136, " \u064b\n\u0640\u064b\n \u064c"), (65140, " \u064d"),
  (65142, " \u064e\n\u0640\u064e\n \u064f\n\u0640\u064f\n \u0650\n\u0640\u0650\n \u0651\n\u0640\u0651\n \u0652\n\u0640\u0652\n\u0621\n\u0622\n\u0622\n\u0623\n\u0623\n\u0624\n\u0624\n\u0625\n\u0625\n\u0626\n\u0626\n\u0626\n\u0626\n\u0627\n\u0627\n\u0628\n\u0628\n\u0628\n\u0628\n\u0629\n\u0629\n\u062a\n\u062a\n\u062a\n\u062a\n\u062b\n\u062b\n\u062b\n\u062b\n\u062c\n\u062c\n\u062c\n\u062c\n\u062d\n\u062d\n\u062d\n\u062d\n\u062e\n\u062e\n\u062e\n\u062e\n\u062f\n\u062f\n\u0630\n\u0630\n\u0631\n\u0631\n\u0632\n\u0632\n\u0633\n\u0633\n\u0633\n\u0633\n\u0634\n\u0634\n\u0634\n\u0634\n\u0635\n\u0635\n\u0635\n\u0635\n\u0636\n\u0636\n\u0636\n\u0636\n\u0637\n\u0637\n\u0637\n\u0637\n\u0638\n\u0638\n\u0638\n\u0638\n\u0639\n\u0639\n\u0639\n\u0639\n\u063a\n\u063a\n\u063a\n\u063a\n\u0641\n\u0641\n\u0641\n\u0641\n\u0642\n\u0642\n\u0642\n\u0642\n\u0643\n\u0643\n\u0643\n\u0643\n\u0644\n\u0644\n\u0644\n\u0644\n\u0645\n\u0645\n\u0645\n\u0645\n\u0646\n\u0646\n\u0646\n\u0646\n\u0647\n\u0647\n\u0647\n\u0647\n\u0648\n\u0648\n\u0649\n\u0649\n\u064a\n\u064a\n\u064a\n\u064a\n\u0644\u0622\n\u0644\u0622\n\u0644\u0623\n\u0644\u0623\n\u0644\u0625\n\u0644\u0625\n\u0644\u0627\n\u0644\u0627"),
  (65279, ""),
  (65375, "⦅\n⦆\n.\n「\n」\n、\n・\nヲ\nァ\nィ\nゥ\nェ\nォ\nャ\nュ\nョ\nッ\n\u30fc\nア\nイ\nウ\nエ\nオ\nカ\nキ\nク\nケ\nコ\nサ\nシ\nス\nセ\nソ\nタ\nチ\nツ\nテ\nト"),
  (65419, "ヒ\nフ\nヘ\nホ"), (65428, "ヤ\nユ"),
  (65436, "ワ\nン\n\u3099\n\u309a\n\nᄀ\nᄁ\nᆪ\nᄂ\nᆬ\nᆭ\nᄃ\nᄄ\nᄅ"), (65456, "ᄚ\nᄆ\nᄇ\nᄈ\nᄡ"),
  (65498, "ᅳ\nᅴ\nᅵ"), (65504, "¢\n£\n¬\n \u0304\n¦\n¥\n₩"), (65512, "│"), (65517, "■\n○"),
  (66964, "𐖻\n𐖼"), (67457, "\u02d0\n\u02d1\næ\nʙ\nɓ"),
  (67463, "ʣ\nꭦ\nʥ\nʤ\nɖ\nɗ\nᶑ\nɘ\nɞ\nʩ\nɤ\nɢ\nɠ\nʛ\nħ\nʜ\nɧ\nʄ\nʪ\nʫ\nɬ\n𝼄\nꞎ\nɮ\n𝼅\nʎ\n𝼆\nø\nɶ\nɷ\nq\nɺ\n𝼈\nɽ\nɾ\nʀ\nʨ\nʦ\nꭧ\nʧ\nʈ\nⱱ"),
  (67506, "ʏ\nʡ\nʢ\nʘ\nǀ\nǁ\nǂ\n𝼊\n𝼞"), (113824, "\n\n\n"),
  (119134, "𝅗𝅥\n𝅘𝅥\n𝅘𝅥𝅮\n𝅘𝅥𝅯\n𝅘𝅥𝅰\n𝅘𝅥𝅱\n𝅘𝅥𝅲"), (119155, "\n\n\n\n\n\n\n"),
  (119227, "𝆹𝅥\n𝆺𝅥\n𝆹𝅥𝅮\n𝆺𝅥𝅮\n𝆹𝅥𝅯\n𝆺𝅥𝅯"), (119964, "a"), (119966, "c\nd"), (119970, "g"),
  (119973, "j\nk"), (119995, "f"), (120068, "a\nb"), (120120, "a\nb"), (120134, "o"),
  (120484, "ı\nȷ"), (120505, "θ"), (120513, "∇"), (120531, "σ"), (120539, "∂\nε\nθ\nκ\nφ\nρ\nπ"),
  (120563, "θ"), (120571, "∇"), (120589, "σ"), (120597, "∂\nε\nθ\nκ\nφ\nρ\nπ"), (120621, "θ"),
  (120629, "∇"), (120647, "σ"), (120655, "∂\nε\nθ\nκ\nφ\nρ\nπ"), (120679, "θ"), (120687, "∇"),
  (120705, "σ"), (120713, "∂\nε\nθ\nκ\nφ\nρ\nπ"), (120737, "θ"), (120745, "∇"), (120763, "σ"),
  (120771, "∂\nε\nθ\nκ\nφ\nρ\nπ\nϝ\nϝ"), (122937, "к\nл\nм"),
  (122951, "ы\nэ\nю\nꚉ\nә\nі\nј\nө\nү\nӏ"), (122970, "к\nл\nо\nп\nс"),
  (122981, "ъ\nы\nґ\nі\nѕ\nџ\nҫ\nꙑ\nұ"), (126464, "\u0627\n\u0628\n\u062c\n\u062f"),
  (126469, "\u0648\n\u0632\n\u062d\n\u0637\n\u064a"),
  (126478, "\u0633\n\u0639\n\u0641\n\u0635\n\u0642\n\u0631\n\u0634\n\u062a\n\u062b\n\u062e\n\u0630\n\u0636\n\u0638\n\u063a\n\u066e\n\u06ba\n\u06a1\n\u066f"),
  (126497, "\u0628\n\u062c"), (126500, "\u0647"), (126503, "\u062d"), (126505, "\u064a"),
  (126510, "\u0633\n\u0639\n\u0641\n\u0635\n\u0642"), (126516, "\u0634\n\u062a\n\u062b\n\u062e"),
  (126521, "\u0636"), (126523, "\u063a"), (126530, "\u062c"), (126535, "\u062d"),
  (126537, "\u064a"), (126539, "\u0644"), (126541, "\u0646\n\u0633\n\u0639"),
  (126545, "\u0635\n\u0642"), (126548, "\u0634"), (126551, "\u062e"), (126553, "\u0636"),
  (126555, "\u063a"), (126557, "\u06ba"), (126559, "\u066f"), (126561, "\u0628\n\u062c"),
  (126564, "\u0647"), (126567, "\u062d\n\u0637\n\u064a\n\u0643"),
  (126572, "\u0645\n\u0646\n\u0633\n\u0639\n\u0641\n\u0635\n\u0642"),
  (126580, "\u0634\n\u062a\n\u062b\n\u062e"), (126585, "\u0636\n\u0638\n\u063a\n\u066e"),
  (126590, "\u06a1"),
  (126592, "\u0627\n\u0628\n\u062c\n\u062f\n\u0647\n\u0648\n\u0632\n\u062d\n\u0637\n\u064a"),
  (126603, "\u0644\n\u0645\n\u0646\n\u0633\n\u0639\n\u0641\n\u0635\n\u0642\n\u0631\n\u0634\n\u062a\n\u062b\n\u062e\n\u0630\n\u0636\n\u0638\n\u063a"),
  (126625, "\u0628\n\u062c\n\u062f"), (126629, "\u0648\n\u0632\n\u062d\n\u0637\n\u064a"),
  (126635, "\u0644\n\u0645\n\u0646\n\u0633\n\u0639\n\u0641\n\u0635\n\u0642\n\u0631\n\u0634\n\u062a\n\u062b\n\u062e\n\u0630\n\u0636\n\u0638\n\u063a"),
  (127233, "0,\n1,\n2,\n3,\n4,\n5,\n6,\n7,\n8,\n9,"),
  (127248, "(a)\n(b)\n(c)\n(d)\n(e)\n(f)\n(g)\n(h)\n(i)\n(j)\n(k)\n(l)\n(m)\n(n)\n(o)\n(p)\n(q)\n(r)\n(s)\n(t)\n(u)\n(v)\n(w)\n(x)\n(y)\n(z)\n〔s〕\nc\nr\ncd\nwz"),
  (127306, "hv\nmv\nsd\nss\nppv\nwc"), (127338, "mc\nmd\nmr"), (127376, "dj"),
  (127488, "ほか\nココ\nサ"),
  (127504, "手\n字\n双\nデ\n二\n多\n解\n天\n交\n映\n無\n料\n前\n後\n再\n新\n初\n終\n生\n販\n声\n吹\n演\n投\n捕\n一\n三\n遊\n左\n中\n右\n指\n走\n打\n禁\n空\n合\n満\n有\n月\n申\n割\n営\n配"),
  (127552, "〔本〕\n〔三〕\n〔二〕\n〔安〕\n〔点〕\n〔打〕\n〔盗〕\n〔勝〕\n〔敗〕"), (127568, "得\n可"),
  (194560, "丽\n丸\n乁\n𠄢\n你\n侮\n侻\n倂\n偺\n備\n僧\n像\n㒞\n𠘺\n免\n兔\n兤\n具\n𠔜\n㒹\n內\n再\n𠕋\n冗\n冤\n仌\n冬\n况\n𩇟\n凵\n刃\n㓟\n刻\n剆\n割\n剷\n㔕\n勇\n勉\n勤\n勺\n包\n匆\n北\n卉\n卑\n博\n即\n卽\n卿\n卿\n卿\n𠨬\n灰\n及\n叟\n𠭣\n叫\n叱\n吆\n咞\n吸\n呈\n周\n咢\n哶\n唐\n啓\n啣\n善\n善\n喙\n喫\n喳\n嗂\n圖\n嘆\n圗\n噑\n噴\n切\n壮\n城\n埴\n堍\n型\n堲\n報\n墬\n𡓤\n売\n壷\n夆\n多\n夢\n奢\n𡚨\n𡛪\n姬\n娛\n娧\n姘\n婦\n㛮\n㛼\n嬈\n嬾\n嬾\n𡧈\n寃\n寘\n寧\n寳\n𡬘\n寿\n将\n当\n尢\n㞁\n屠\n屮\n峀\n岍\n𡷤\n嵃\n𡷦\n嵮\n嵫\n嵼\n巡\n巢\n㠯\n巽\n帨\n帽\n幩\n㡢\n𢆃\n㡼\n庰\n庳\n庶\n廊\n𪎒\n廾\n𢌱\n𢌱\n舁\n弢\n弢\n㣇\n𣊸\n𦇚\n形\n彫\n㣣\n徚\n忍\n志\n忹\n悁\n㤺\n㤜\n悔\n𢛔\n惇\n慈\n慌\n慎\n慌\n慺\n憎\n憲\n憤\n憯\n懞\n懲\n懶\n成\n戛\n扝\n抱\n拔\n捐\n𢬌\n挽\n拼\n捨\n掃\n揤\n𢯱\n搢\n揅\n掩\n㨮\n摩\n摾\n撝\n摷\n㩬\n敏\n敬\n𣀊\n旣\n書\n晉\n㬙\n暑\n㬈\n㫤\n冒\n冕\n最\n暜\n肭\n䏙\n朗\n望\n朡\n杞\n杓\n𣏃\n㭉\n柺\n枅\n桒\n梅\n𣑭\n梎\n栟\n椔\n㮝\n楂\n榣\n槪\n檨\n𣚣\n櫛\n㰘\n次\n𣢧\n歔\n㱎\n歲\n殟\n殺\n殻\n𣪍\n𡴋\n𣫺\n汎\n𣲼\n沿\n泍\n汧\n洖\n派\n海\n流\n浩\n浸\n涅\n𣴞\n洴\n港\n湮\n㴳\n滋\n滇\n𣻑\n淹\n潮\n𣽞\n𣾎\n濆\n瀹\n瀞\n瀛\n㶖\n灊\n災\n灷\n炭\n𠔥\n煅\n𤉣\n熜\n𤎫\n爨\n爵\n牐\n𤘈\n犀\n犕\n𤜵\n𤠔\n獺\n王\n㺬\n玥\n㺸\n㺸\n瑇\n瑜\n瑱\n璅\n瓊\n㼛\n甤\n𤰶\n甾\n𤲒\n異\n𢆟\n瘐\n𤾡\n𤾸\n𥁄\n㿼\n䀈\n直\n𥃳\n𥃲\n𥄙\n𥄳\n眞\n真\n真\n睊\n䀹\n瞋\n䁆\n䂖\n𥐝\n硎\n碌\n磌\n䃣\n𥘦\n祖\n𥚚\n𥛅\n福\n秫\n䄯\n穀\n穊\n穏\n𥥼\n𥪧\n𥪧\n竮\n䈂\n𥮫\n篆\n築\n䈧\n𥲀\n糒\n䊠\n糨\n糣\n紀\n𥾆\n絣\n䌁\n緇\n縂\n繅\n䌴\n𦈨\n𦉇\n䍙\n𦋙\n罺\n𦌾\n羕\n翺\n者\n𦓚\n𦔣\n聠\n𦖨\n聰\n𣍟\n䏕\n育\n脃\n䐋\n脾\n媵\n𦞧\n𦞵\n𣎓\n𣎜\n舁\n舄\n辞\n䑫\n芑\n芋\n芝\n劳\n花\n芳\n芽\n苦\n𦬼\n若\n茝\n荣\n莭\n茣\n莽\n菧\n著\n荓\n菊\n菌\n菜\n𦰶\n𦵫\n𦳕\n䔫\n蓱\n蓳\n蔖\n𧏊\n蕤\n𦼬\n䕝\n䕡\n𦾱\n𧃒\n䕫\n虐\n虜\n虧\n虩\n蚩\n蚈\n蜎\n蛢\n蝹\n蜨\n蝫\n螆\n䗗\n蟡\n蠁\n䗹\n衠\n衣\n𧙧\n裗\n裞\n䘵\n裺\n㒻\n𧢮\n𧥦\n䚾\n䛇\n誠\n諭\n變\n豕\n𧲨\n貫\n賁\n贛\n起\n𧼯\n𠠄\n跋\n趼\n跰\n𠣞\n軔\n輸\n𨗒\n𨗭\n邔\n郱\n鄑\n𨜮\n鄛\n鈸\n鋗\n鋘\n鉼\n鏹\n鐕\n𨯺\n開\n䦕\n閷\n𨵷\n䧦\n雃\n嶲\n霣\n𩅅\n𩈚\n䩮\n䩶\n韠\n𩐊\n䪲\n𩒖\n頋\n頋\n頩\n𩖶\n飢\n䬳\n餩\n馧\n駂\n駾\n䯎\n𩬰\n鬒\n鱀\n鳽\n䳎\n䳭\n鵧\n𪃎\n䳸\n𪄅\n𪈎\n𪊑\n麻\n䵖\n黹\n黾\n鼅\n鼏\n鼖\n鼻\n𪘀"),
  (917760, "\n\n\n\n\n\n\n\n\n\n\n\n\n\n\n\n\n\n\n\n\n\n\n\n\n\n\n\n\n\n\n\n\n\n\n\n\n\n\n\n\n\n\n\n\n\n\n\n\n\n\n\n\n\n\n\n\n\n\n\n\n\n\n\n\n\n\n\n\n\n\n\n\n\n\n\n\n\n\n\n\n\n\n\n\n\n\n\n\n\n\n\n\n\n\n\n\n\n\n\n\n\n\n\n\n\n\n\n\n\n\n\n\n\n\n\n\n\n\n\n\n\n\n\n\n\n\n\n\n\n\n\n\n\n\n\n\n\n\n\n\n\n\n\n\n\n\n\n\n\n\n\n\n\n\n\n\n\n\n\n\n\n\n\n\n\n\n\n\n\n\n\n\n\n\n\n\n\n\n\n\n\n\n\n\n\n\n\n\n\n\n\n\n\n\n\n\n\n\n\n\n\n\n\n\n\n\n\n\n\n\n\n\n\n\n\n\n\n\n\n\n\n\n\n\n\n\n\n\n\n\n\n\n\n\n\n\n\n\n")]

def lineOf? (run : Nat × String) (n : Nat) : Option String :=
  if run.1 ≤ n then (run.2.splitOn "\n")[n - run.1]? else none

def shifted? (n : Nat) (s : Shift) : Option Char :=
  if s.first ≤ n && (n - s.first) % s.step = 0 && (n - s.first) / s.step < s.count then
    some (Char.ofNat (n + s.offset).toNat)
  else none

def fold? (c : Char) : Option (List Char) :=
  match shifts.findSome? (shifted? c.toNat) with
  | some d => some [d]
  | none =>
    ((foldedRuns.takeWhile fun r => r.1 ≤ c.toNat).getLast?.bind fun r => lineOf? r c.toNat).map
      String.toList

end Characters
end ListKeeper
