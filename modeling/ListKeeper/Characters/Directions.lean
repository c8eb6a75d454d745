/-! The direction in which characters are written, and the rule for labels that stand in a name with
characters written from right to left. -/
namespace ListKeeper
namespace Characters

inductive Direction
  | left
  | right
  | arabicNumber
  | number
  | neutral
  | mark
  | blank
  deriving DecidableEq

/-- The first and the last of each run of characters of one direction, which is left where no run is
given. -/
def directionRuns : List (Nat × Nat × Direction) := [
  (0, 8, .neutral), (9, 13, .blank), (14, 27, .neutral), (28, 32, .blank), (33, 47, .neutral),
  (48, 57, .number), (58, 64, .neutral), (91, 96, .neutral), (123, 215, .neutral),
  (247, 247, .neutral), (697, 698, .neutral), (706, 719, .neutral), (722, 749, .neutral),
  (751, 767, .neutral), (768, 879, .mark), (885, 885, .neutral), (1014, 1014, .neutral),
  (1155, 1161, .mark), (1418, 1423, .neutral), (1425, 1469, .mark), (1470, 1470, .right),
  (1471, 1471, .mark), (1472, 1472, .right), (1473, 1474, .mark), (1475, 1475, .right),
  (1476, 1477, .mark), (1478, 1478, .right), (1479, 1479, .mark), (1488, 1524, .right),
  (1542, 1543, .neutral), (1544, 1544, .right), (1545, 1546, .neutral), (1547, 1547, .right),
  (1548, 1548, .neutral), (1549, 1549, .right), (1550, 1551, .neutral), (1552, 1562, .mark),
  (1563, 1610, .right), (1611, 1631, .mark), (1632, 1641, .arabicNumber), (1642, 1642, .neutral),
  (1643, 1644, .arabicNumber), (1645, 1647, .right), (1648, 1648, .mark), (1649, 1749, .right),
  (1750, 1756, .mark), (1758, 1758, .neutral), (1759, 1764, .mark), (1765, 1766, .right),
  (1767, 1768, .mark), (1769, 1769, .neutral), (1770, 1773, .mark), (1774, 1775, .right),
  (1776, 1785, .number), (1786, 1808, .right), (1809, 1809, .mark), (1810, 1839, .right),
  (1840, 1866, .mark), (1869, 1957, .right), (1958, 1968, .mark), (1969, 2026, .right),
  (2027, 2035, .mark), (2036, 2037, .right), (2038, 2041, .neutral), (2042, 2042, .right),
  (2045, 2045, .mark), (2046, 2069, .right), (2070, 2073, .mark), (2074, 2074, .right),
  (2075, 2083, .mark), (2084, 2084, .right), (2085, 2087, .mark), (2088, 2088, .right),
  (2089, 2093, .mark), (2096, 2136, .right), (2137, 2139, .mark), (2142, 2190, .right),
  (2200, 2207, .mark), (2208, 2249, .right), (2250, 2306, .mark), (2362, 2362, .mark),
  (2364, 2364, .mark), (2369, 2376, .mark), (2381, 2381, .mark), (2385, 2391, .mark),
  (2402, 2403, .mark), (2433, 2433, .mark), (2492, 2492, .mark), (2497, 2500, .mark),
  (2509, 2509, .mark), (2530, 2531, .mark), (2546, 2547, .neutral), (2555, 2555, .neutral),
  (2558, 2562, .mark), (2620, 2620, .mark), (2625, 2641, .mark), (2672, 2673, .mark),
  (2677, 2677, .mark), (2689, 2690, .mark), (2748, 2748, .mark), (2753, 2760, .mark),
  (2765, 2765, .mark), (2786, 2787, .mark), (2801, 2801, .neutral), (2810, 2817, .mark),
  (2876, 2876, .mark), (2879, 2879, .mark), (2881, 2884, .mark), (2893, 2902, .mark),
  (2914, 2915, .mark), (2946, 2946, .mark), (3008, 3008, .mark), (3021, 3021, .mark),
  (3059, 3066, .neutral), (3072, 3072, .mark), (3076, 3076, .mark), (3132, 3132, .mark),
  (3134, 3136, .mark), (3142, 3158, .mark), (3170, 3171, .mark), (3192, 3198, .neutral),
  (3201, 3201, .mark), (3260, 3260, .mark), (3276, 3277, .mark), (3298, 3299, .mark),
  (3328, 3329, .mark), (3387, 3388, .mark), (3393, 3396, .mark), (3405, 3405, .mark),
  (3426, 3427, .mark), (3457, 3457, .mark), (3530, 3530, .mark), (3538, 3542, .mark),
  (3633, 3633, .mark), (3636, 3642, .mark), (3647, 3647, .neutral), (3655, 3662, .mark),
  (3761, 3761, .mark), (3764, 3772, .mark), (3784, 3790, .mark), (3864, 3865, .mark),
  (3893, 3893, .mark), (3895, 3895, .mark), (3897, 3897, .mark), (3898, 3901, .neutral),
  (3953, 3966, .mark), (3968, 3972, .mark), (3974, 3975, .mark), (3981, 4028, .mark),
  (4038, 4038, .mark), (4141, 4144, .mark), (4146, 4151, .mark), (4153, 4154, .mark),
  (4157, 4158, .mark), (4184, 4185, .mark), (4190, 4192, .mark), (4209, 4212, .mark),
  (4226, 4226, .mark), (4229, 4230, .mark), (4237, 4237, .mark), (4253, 4253, .mark),
  (4957, 4959, .mark), (5008, 5017, .neutral), (5120, 5120, .neutral), (5787, 5788, .neutral),
  (5906, 5908, .mark), (5938, 5939, .mark), (5970, 5971, .mark), (6002, 6003, .mark),
  (6071, 6077, .mark), (6086, 6086, .mark), (6089, 6099, .mark), (6107, 6107, .neutral),
  (6109, 6109, .mark), (6128, 6154, .neutral), (6277, 6278, .mark), (6313, 6313, .mark),
  (6432, 6434, .mark), (6439, 6440, .mark), (6450, 6450, .mark), (6457, 6459, .mark),
  (6464, 6469, .neutral), (6622, 6655, .neutral), (6679, 6680, .mark), (6683, 6683, .mark),
  (6742, 6742, .mark), (6744, 6752, .mark), (6754, 6754, .mark), (6757, 6764, .mark),
  (6771, 6783, .mark), (6832, 6862, .mark), (6912, 6915, .mark), (6964, 6964, .mark),
  (6966, 6970, .mark), (6972, 6972, .mark), (6978, 6978, .mark), (7019, 7027, .mark),
  (7040, 7041, .mark), (7074, 7077, .mark), (7080, 7081, .mark), (7083, 7085, .mark),
  (7142, 7142, .mark), (7144, 7145, .mark), (7149, 7149, .mark), (7151, 7153, .mark),
  (7212, 7219, .mark), (7222, 7223, .mark), (7376, 7378, .mark), (7380, 7392, .mark),
  (7394, 7400, .mark), (7405, 7405, .mark), (7412, 7412, .mark), (7416, 7417, .mark),
  (7616, 7679, .mark), (8204, 8384, .neutral), (8400, 8432, .mark), (8452, 8525, .neutral),
  (8586, 9013, .neutral), (9083, 9108, .neutral), (9110, 9254, .neutral), (9280, 9899, .neutral),
  (9901, 10239, .neutral), (10496, 11157, .neutral), (11159, 11263, .neutral),
  (11493, 11498, .neutral), (11503, 11505, .mark), (11513, 11519, .neutral),
  (11647, 11647, .mark), (11744, 11775, .mark), (11776, 12292, .neutral),
  (12296, 12320, .neutral), (12330, 12333, .mark), (12336, 12336, .neutral),
  (12343, 12343, .neutral), (12349, 12351, .neutral), (12441, 12442, .mark),
  (12448, 12448, .neutral), (12539, 12539, .neutral), (12736, 12771, .neutral),
  (19904, 19967, .neutral), (42128, 42182, .neutral), (42509, 42511, .neutral),
  (42607, 42610, .mark), (42611, 42611, .neutral), (42612, 42621, .mark),
  (42622, 42623, .neutral), (42654, 42655, .mark), (42736, 42737, .mark),
  (42752, 42785, .neutral), (42888, 42888, .neutral), (43010, 43010, .mark),
  (43014, 43014, .mark), (43019, 43019, .mark), (43045, 43046, .mark), (43048, 43051, .neutral),
  (43052, 43052, .mark), (43064, 43065, .neutral), (43124, 43127, .neutral),
  (43204, 43205, .mark), (43232, 43249, .mark), (43263, 43263, .mark), (43302, 43309, .mark),
  (43335, 43345, .mark), (43392, 43394, .mark), (43443, 43443, .mark), (43446, 43449, .mark),
  (43452, 43453, .mark), (43493, 43493, .mark), (43561, 43566, .mark), (43569, 43570, .mark),
  (43573, 43574, .mark), (43587, 43587, .mark), (43596, 43596, .mark), (43644, 43644, .mark),
  (43696, 43696, .mark), (43698, 43700, .mark), (43703, 43704, .mark), (43710, 43711, .mark),
  (43713, 43713, .mark), (43756, 43757, .mark), (43766, 43766, .mark), (43882, 43883, .neutral),
  (44005, 44005, .mark), (44008, 44008, .mark), (44013, 44013, .mark), (64286, 64286, .mark),
  (64434, 64450, .right), (64830, 64847, .neutral), (64975, 65023, .neutral),
  (65056, 65071, .mark), (65093, 65094, .neutral), (65139, 65139, .right),
  (65793, 65793, .neutral), (65856, 65932, .neutral), (65936, 65952, .neutral),
  (66045, 66045, .mark), (66272, 66272, .mark), (66273, 66299, .number), (66422, 66426, .mark),
  (67584, 67867, .right), (67871, 67871, .neutral), (67872, 67903, .right),
  (67968, 68096, .right), (68097, 68111, .mark), (68112, 68149, .right), (68152, 68159, .mark),
  (68160, 68324, .right), (68325, 68326, .mark), (68331, 68405, .right), (68409, 68415, .neutral),
  (68416, 68899, .right), (68900, 68903, .mark), (68912, 68921, .arabicNumber),
  (69216, 69246, .arabicNumber), (69248, 69289, .right), (69291, 69292, .mark),
  (69293, 69297, .right), (69373, 69375, .mark), (69376, 69445, .right), (69446, 69456, .mark),
  (69457, 69505, .right), (69506, 69509, .mark), (69510, 69622, .right), (69633, 69633, .mark),
  (69688, 69702, .mark), (69714, 69733, .neutral), (69744, 69744, .mark), (69747, 69748, .mark),
  (69759, 69761, .mark), (69811, 69814, .mark), (69817, 69818, .mark), (69826, 69826, .mark),
  (69888, 69890, .mark), (69927, 69931, .mark), (69933, 69940, .mark), (70003, 70003, .mark),
  (70016, 70017, .mark), (70070, 70078, .mark), (70089, 70092, .mark), (70095, 70095, .mark),
  (70191, 70193, .mark), (70196, 70196, .mark), (70198, 70199, .mark), (70206, 70206, .mark),
  (70209, 70209, .mark), (70367, 70367, .mark), (70371, 70378, .mark), (70400, 70401, .mark),
  (70459, 70460, .mark), (70464, 70464, .mark), (70502, 70516, .mark), (70712, 70719, .mark),
  (70722, 70724, .mark), (70726, 70726, .mark), (70750, 70750, .mark), (70835, 70840, .mark),
  (70842, 70842, .mark), (70847, 70848, .mark), (70850, 70851, .mark), (71090, 71093, .mark),
  (71100, 71101, .mark), (71103, 71104, .mark), (71132, 71133, .mark), (71219, 71226, .mark),
  (71229, 71229, .mark), (71231, 71232, .mark), (71264, 71276, .neutral), (71339, 71339, .mark),
  (71341, 71341, .mark), (71344, 71349, .mark), (71351, 71351, .mark), (71453, 71455, .mark),
  (71458, 71461, .mark), (71463, 71467, .mark), (71727, 71735, .mark), (71737, 71738, .mark),
  (71995, 71996, .mark), (71998, 71998, .mark), (72003, 72003, .mark), (72148, 72155, .mark),
  (72160, 72160, .mark), (72193, 72198, .mark), (72201, 72202, .mark), (72243, 72248, .mark),
  (72251, 72254, .mark), (72263, 72263, .mark), (72273, 72278, .mark), (72281, 72283, .mark),
  (72330, 72342, .mark), (72344, 72345, .mark), (72752, 72765, .mark), (72850, 72871, .mark),
  (72874, 72880, .mark), (72882, 72883, .mark), (72885, 72886, .mark), (73009, 73029, .mark),
  (73031, 73031, .mark), (73104, 73105, .mark), (73109, 73109, .mark), (73111, 73111, .mark),
  (73459, 73460, .mark), (73472, 73473, .mark), (73526, 73530, .mark), (73536, 73536, .mark),
  (73538, 73538, .mark), (73685, 73713, .neutral), (78912, 78912, .mark), (78919, 78933, .mark),
  (92912, 92916, .mark), (92976, 92982, .mark), (94031, 94031, .mark), (94095, 94098, .mark),
  (94178, 94178, .neutral), (94180, 94180, .mark), (113821, 113822, .mark),
  (118528, 118598, .mark), (119143, 119145, .mark), (119163, 119170, .mark),
  (119173, 119179, .mark), (119210, 119213, .mark), (119273, 119361, .neutral),
  (119362, 119364, .mark), (119365, 119365, .neutral), (119552, 119638, .neutral),
  (121344, 121398, .mark), (121403, 121452, .mark), (121461, 121461, .mark),
  (121476, 121476, .mark), (121499, 121519, .mark), (122880, 123023, .mark),
  (123184, 123190, .mark), (123566, 123566, .mark), (123628, 123631, .mark),
  (123647, 123647, .neutral), (124140, 124143, .mark), (124928, 125135, .right),
  (125136, 125142, .mark), (125218, 125251, .right), (125252, 125258, .mark),
  (125259, 126269, .right), (126704, 127279, .neutral), (127341, 127343, .neutral),
  (127405, 127405, .neutral), (127584, 128727, .neutral), (128732, 128886, .neutral),
  (128891, 129201, .neutral), (129280, 129619, .neutral), (129632, 129672, .neutral),
  (129680, 129725, .neutral), (129727, 129733, .neutral), (129742, 129755, .neutral),
  (129760, 129768, .neutral), (129776, 129994, .neutral)]

def direction (c : Char) : Direction :=
  match directionRuns.find? fun r => r.1 ≤ c.toNat && c.toNat ≤ r.2.1 with
  | some r => r.2.2
  | none => .left

/-- Whether a text has characters that make its line run from right to left. -/
def runsRight (cs : List Char) : Bool :=
  cs.any fun c => direction c = .right || direction c = .arabicNumber

def lastDirection? (ds : List Direction) : Option Direction :=
  (ds.reverse.dropWhile (· = .mark)).head?

/-- Whether a label keeps to one direction: its first character decides which, and the numbers in it
are of one kind. -/
def keepsDirection (label : List Char) : Bool :=
  let ds := label.map direction
  match ds with
  | [] => true
  | .left :: _ =>
    ds.all (fun d => d = .left || d = .number || d = .neutral || d = .mark) &&
      (lastDirection? ds = some .left || lastDirection? ds = some .number)
  | .right :: _ =>
    ds.all (fun d => d ≠ .left && d ≠ .blank) &&
      !(ds.contains .number && ds.contains .arabicNumber) &&
      (lastDirection? ds = some .right || lastDirection? ds = some .number ||
        lastDirection? ds = some .arabicNumber)
  | _ => false

end Characters
end ListKeeper
