import TfliteTts.Dart.Basic

open Dart

namespace Baker

def pad : List Str :=
  [lit "pad"]

def eos : List Str :=
  [lit "eos"]

def pause : List Str :=
  ["sil", "#0", "#1", "#2", "#3"].map lit

def initials : List Str :=
  ["^", "b", "c", "ch", "d", "f", "g", "h", "j", "k", "l", "m", "n", "p", "q", "r", "s", "sh", "t",
    "x", "z", "zh"].map lit

def tones : Str :=
  lit "12345"

def finals : List Str :=
  ["a", "ai", "an", "ang", "ao", "e", "ei", "en", "eng", "er", "i", "ia", "ian", "iang", "iao",
    "ie", "ii", "iii", "in", "ing", "iong", "iou", "o", "ong", "ou", "u", "ua", "uai", "uan",
    "uang", "uei", "uen", "ueng", "uo", "v", "van", "ve", "vn"].map lit

def BAKER_SYMBOLS : List Str :=
  pad ++ pause ++ initials ++ (finals.flatMap fun i => tones.map fun j => i ++ [j]) ++ eos

-- The members of the decoded `_MAPPERSTRING` that translate, in source order. No key occurs twice in
-- any of them. The preprocessor reads the first and the third one.

def symbolEntries : List (String × Nat) :=
  [("pad", 0), ("sil", 1), ("#0", 2), ("#1", 3), ("#2", 4), ("#3", 5), ("^", 6), ("b", 7),
   ("c", 8), ("ch", 9), ("d", 10), ("f", 11), ("g", 12), ("h", 13), ("j", 14), ("k", 15),
   ("l", 16), ("m", 17), ("n", 18), ("p", 19), ("q", 20), ("r", 21), ("s", 22), ("sh", 23),
   ("t", 24), ("x", 25), ("z", 26), ("zh", 27), ("a1", 28), ("a2", 29), ("a3", 30), ("a4", 31),
   ("a5", 32), ("ai1", 33), ("ai2", 34), ("ai3", 35), ("ai4", 36), ("ai5", 37), ("an1", 38),
   ("an2", 39), ("an3", 40), ("an4", 41), ("an5", 42), ("ang1", 43), ("ang2", 44), ("ang3", 45),
   ("ang4", 46), ("ang5", 47), ("ao1", 48), ("ao2", 49), ("ao3", 50), ("ao4", 51), ("ao5", 52),
   ("e1", 53), ("e2", 54), ("e3", 55), ("e4", 56), ("e5", 57), ("ei1", 58), ("ei2", 59),
   ("ei3", 60), ("ei4", 61), ("ei5", 62), ("en1", 63), ("en2", 64), ("en3", 65), ("en4", 66),
   ("en5", 67), ("eng1", 68), ("eng2", 69), ("eng3", 70), ("eng4", 71), ("eng5", 72), ("er1", 73),
   ("er2", 74), ("er3", 75), ("er4", 76), ("er5", 77), ("i1", 78), ("i2", 79), ("i3", 80),
   ("i4", 81), ("i5", 82), ("ia1", 83), ("ia2", 84), ("ia3", 85), ("ia4", 86), ("ia5", 87),
   ("ian1", 88), ("ian2", 89), ("ian3", 90), ("ian4", 91), ("ian5", 92), ("iang1", 93),
   ("iang2", 94), ("iang3", 95), ("iang4", 96), ("iang5", 97), ("iao1", 98), ("iao2", 99),
   ("iao3", 100), ("iao4", 101), ("iao5", 102), ("ie1", 103), ("ie2", 104), ("ie3", 105),
   ("ie4", 106), ("ie5", 107), ("ii1", 108), ("ii2", 109), ("ii3", 110), ("ii4", 111),
   ("ii5", 112), ("iii1", 113), ("iii2", 114), ("iii3", 115), ("iii4", 116), ("iii5", 117),
   ("in1", 118), ("in2", 119), ("in3", 120), ("in4", 121), ("in5", 122), ("ing1", 123),
   ("ing2", 124), ("ing3", 125), ("ing4", 126), ("ing5", 127), ("iong1", 128), ("iong2", 129),
   ("iong3", 130), ("iong4", 131), ("iong5", 132), ("iou1", 133), ("iou2", 134), ("iou3", 135),
   ("iou4", 136), ("iou5", 137), ("o1", 138), ("o2", 139), ("o3", 140), ("o4", 141), ("o5", 142),
   ("ong1", 143), ("ong2", 144), ("ong3", 145), ("ong4", 146), ("ong5", 147), ("ou1", 148),
   ("ou2", 149), ("ou3", 150), ("ou4", 151), ("ou5", 152), ("u1", 153), ("u2", 154), ("u3", 155),
   ("u4", 156), ("u5", 157), ("ua1", 158), ("ua2", 159), ("ua3", 160), ("ua4", 161), ("ua5", 162),
   ("uai1", 163), ("uai2", 164), ("uai3", 165), ("uai4", 166), ("uai5", 167), ("uan1", 168),
   ("uan2", 169), ("uan3", 170), ("uan4", 171), ("uan5", 172), ("uang1", 173), ("uang2", 174),
   ("uang3", 175), ("uang4", 176), ("uang5", 177), ("uei1", 178), ("uei2", 179), ("uei3", 180),
   ("uei4", 181), ("uei5", 182), ("uen1", 183), ("uen2", 184), ("uen3", 185), ("uen4", 186),
   ("uen5", 187), ("ueng1", 188), ("ueng2", 189), ("ueng3", 190), ("ueng4", 191), ("ueng5", 192),
   ("uo1", 193), ("uo2", 194), ("uo3", 195), ("uo4", 196), ("uo5", 197), ("v1", 198), ("v2", 199),
   ("v3", 200), ("v4", 201), ("v5", 202), ("van1", 203), ("van2", 204), ("van3", 205),
   ("van4", 206), ("van5", 207), ("ve1", 208), ("ve2", 209), ("ve3", 210), ("ve4", 211),
   ("ve5", 212), ("vn1", 213), ("vn2", 214), ("vn3", 215), ("vn4", 216), ("vn5", 217),
   ("eos", 218)]

-- The keys are the decimal numerals of these numbers.
def idEntries : List (Nat × String) :=
  [(0, "pad"), (1, "sil"), (2, "#0"), (3, "#1"), (4, "#2"), (5, "#3"), (6, "^"), (7, "b"),
   (8, "c"), (9, "ch"), (10, "d"), (11, "f"), (12, "g"), (13, "h"), (14, "j"), (15, "k"),
   (16, "l"), (17, "m"), (18, "n"), (19, "p"), (20, "q"), (21, "r"), (22, "s"), (23, "sh"),
   (24, "t"), (25, "x"), (26, "z"), (27, "zh"), (28, "a1"), (29, "a2"), (30, "a3"), (31, "a4"),
   (32, "a5"), (33, "ai1"), (34, "ai2"), (35, "ai3"), (36, "ai4"), (37, "ai5"), (38, "an1"),
   (39, "an2"), (40, "an3"), (41, "an4"), (42, "an5"), (43, "ang1"), (44, "ang2"), (45, "ang3"),
   (46, "ang4"), (47, "ang5"), (48, "ao1"), (49, "ao2"), (50, "ao3"), (51, "ao4"), (52, "ao5"),
   (53, "e1"), (54, "e2"), (55, "e3"), (56, "e4"), (57, "e5"), (58, "ei1"), (59, "ei2"),
   (60, "ei3"), (61, "ei4"), (62, "ei5"), (63, "en1"), (64, "en2"), (65, "en3"), (66, "en4"),
   (67, "en5"), (68, "eng1"), (69, "eng2"), (70, "eng3"), (71, "eng4"), (72, "eng5"),
   (73, "er1"), (74, "er2"), (75, "er3"), (76, "er4"), (77, "er5"), (78, "i1"), (79, "i2"),
   (80, "i3"), (81, "i4"), (82, "i5"), (83, "ia1"), (84, "ia2"), (85, "ia3"), (86, "ia4"),
   (87, "ia5"), (88, "ian1"), (89, "ian2"), (90, "ian3"), (91, "ian4"), (92, "ian5"),
   (93, "iang1"), (94, "iang2"), (95, "iang3"), (96, "iang4"), (97, "iang5"), (98, "iao1"),
   (99, "iao2"), (100, "iao3"), (101, "iao4"), (102, "iao5"), (103, "ie1"), (104, "ie2"),
   (105, "ie3"), (106, "ie4"), (107, "ie5"), (108, "ii1"), (109, "ii2"), (110, "ii3"),
   (111, "ii4"), (112, "ii5"), (113, "iii1"), (114, "iii2"), (115, "iii3"), (116, "iii4"),
   (117, "iii5"), (118, "in1"), (119, "in2"), (120, "in3"), (121, "in4"), (122, "in5"),
   (123, "ing1"), (124, "ing2"), (125, "ing3"), (126, "ing4"), (127, "ing5"), (128, "iong1"),
   (129, "iong2"), (130, "iong3"), (131, "iong4"), (132, "iong5"), (133, "iou1"), (134, "iou2"),
   (135, "iou3"), (136, "iou4"), (137, "iou5"), (138, "o1"), (139, "o2"), (140, "o3"),
   (141, "o4"), (142, "o5"), (143, "ong1"), (144, "ong2"), (145, "ong3"), (146, "ong4"),
   (147, "ong5"), (148, "ou1"), (149, "ou2"), (150, "ou3"), (151, "ou4"), (152, "ou5"),
   (153, "u1"), (154, "u2"), (155, "u3"), (156, "u4"), (157, "u5"), (158, "ua1"), (159, "ua2"),
   (160, "ua3"), (161, "ua4"), (162, "ua5"), (163, "uai1"), (164, "uai2"), (165, "uai3"),
   (166, "uai4"), (167, "uai5"), (168, "uan1"), (169, "uan2"), (170, "uan3"), (171, "uan4"),
   (172, "uan5"), (173, "uang1"), (174, "uang2"), (175, "uang3"), (176, "uang4"), (177, "uang5"),
   (178, "uei1"), (179, "uei2"), (180, "uei3"), (181, "uei4"), (182, "uei5"), (183, "uen1"),
   (184, "uen2"), (185, "uen3"), (186, "uen4"), (187, "uen5"), (188, "ueng1"), (189, "ueng2"),
   (190, "ueng3"), (191, "ueng4"), (192, "ueng5"), (193, "uo1"), (194, "uo2"), (195, "uo3"),
   (196, "uo4"), (197, "uo5"), (198, "v1"), (199, "v2"), (200, "v3"), (201, "v4"), (202, "v5"),
   (203, "van1"), (204, "van2"), (205, "van3"), (206, "van4"), (207, "van5"), (208, "ve1"),
   (209, "ve2"), (210, "ve3"), (211, "ve4"), (212, "ve5"), (213, "vn1"), (214, "vn2"),
   (215, "vn3"), (216, "vn4"), (217, "vn5"), (218, "eos")]

def pinyinEntries : List (String × String × String) :=
  [("a", "^", "a"), ("ai", "^", "ai"), ("an", "^", "an"), ("ang", "^", "ang"), ("ao", "^", "ao"),
   ("ba", "b", "a"), ("bai", "b", "ai"), ("ban", "b", "an"), ("bang", "b", "ang"),
   ("bao", "b", "ao"), ("be", "b", "e"), ("bei", "b", "ei"), ("ben", "b", "en"),
   ("beng", "b", "eng"), ("bi", "b", "i"), ("bian", "b", "ian"), ("biao", "b", "iao"),
   ("bie", "b", "ie"), ("bin", "b", "in"), ("bing", "b", "ing"), ("bo", "b", "o"),
   ("bu", "b", "u"), ("ca", "c", "a"), ("cai", "c", "ai"), ("can", "c", "an"),
   ("cang", "c", "ang"), ("cao", "c", "ao"), ("ce", "c", "e"), ("cen", "c", "en"),
   ("ceng", "c", "eng"), ("cha", "ch", "a"), ("chai", "ch", "ai"), ("chan", "ch", "an"),
   ("chang", "ch", "ang"), ("chao", "ch", "ao"), ("che", "ch", "e"), ("chen", "ch", "en"),
   ("cheng", "ch", "eng"), ("chi", "ch", "iii"), ("chong", "ch", "ong"), ("chou", "ch", "ou"),
   ("chu", "ch", "u"), ("chua", "ch", "ua"), ("chuai", "ch", "uai"), ("chuan", "ch", "uan"),
   ("chuang", "ch", "uang"), ("chui", "ch", "uei"), ("chun", "ch", "uen"), ("chuo", "ch", "uo"),
   ("ci", "c", "ii"), ("cong", "c", "ong"), ("cou", "c", "ou"), ("cu", "c", "u"),
   ("cuan", "c", "uan"), ("cui", "c", "uei"), ("cun", "c", "uen"), ("cuo", "c", "uo"),
   ("da", "d", "a"), ("dai", "d", "ai"), ("dan", "d", "an"), ("dang", "d", "ang"),
   ("dao", "d", "ao"), ("de", "d", "e"), ("dei", "d", "ei"), ("den", "d", "en"),
   ("deng", "d", "eng"), ("di", "d", "i"), ("dia", "d", "ia"), ("dian", "d", "ian"),
   ("diao", "d", "iao"), ("die", "d", "ie"), ("ding", "d", "ing"), ("diu", "d", "iou"),
   ("dong", "d", "ong"), ("dou", "d", "ou"), ("du", "d", "u"), ("duan", "d", "uan"),
   ("dui", "d", "uei"), ("dun", "d", "uen"), ("duo", "d", "uo"), ("e", "^", "e"),
   ("ei", "^", "ei"), ("en", "^", "en"), ("ng", "^", "en"), ("eng", "^", "eng"),
   ("er", "^", "er"), ("fa", "f", "a"), ("fan", "f", "an"), ("fang", "f", "ang"),
   ("fei", "f", "ei"), ("fen", "f", "en"), ("feng", "f", "eng"), ("fo", "f", "o"),
   ("fou", "f", "ou"), ("fu", "f", "u"), ("ga", "g", "a"), ("gai", "g", "ai"), ("gan", "g", "an"),
   ("gang", "g", "ang"), ("gao", "g", "ao"), ("ge", "g", "e"), ("gei", "g", "ei"),
   ("gen", "g", "en"), ("geng", "g", "eng"), ("gong", "g", "ong"), ("gou", "g", "ou"),
   ("gu", "g", "u"), ("gua", "g", "ua"), ("guai", "g", "uai"), ("guan", "g", "uan"),
   ("guang", "g", "uang"), ("gui", "g", "uei"), ("gun", "g", "uen"), ("guo", "g", "uo"),
   ("ha", "h", "a"), ("hai", "h", "ai"), ("han", "h", "an"), ("hang", "h", "ang"),
   ("hao", "h", "ao"), ("he", "h", "e"), ("hei", "h", "ei"), ("hen", "h", "en"),
   ("heng", "h", "eng"), ("hong", "h", "ong"), ("hou", "h", "ou"), ("hu", "h", "u"),
   ("hua", "h", "ua"), ("huai", "h", "uai"), ("huan", "h", "uan"), ("huang", "h", "uang"),
   ("hui", "h", "uei"), ("hun", "h", "uen"), ("huo", "h", "uo"), ("ji", "j", "i"),
   ("jia", "j", "ia"), ("jian", "j", "ian"), ("jiang", "j", "iang"), ("jiao", "j", "iao"),
   ("jie", "j", "ie"), ("jin", "j", "in"), ("jing", "j", "ing"), ("jiong", "j", "iong"),
   ("jiu", "j", "iou"), ("ju", "j", "v"), ("juan", "j", "van"), ("jue", "j", "ve"),
   ("jun", "j", "vn"), ("ka", "k", "a"), ("kai", "k", "ai"), ("kan", "k", "an"),
   ("kang", "k", "ang"), ("kao", "k", "ao"), ("ke", "k", "e"), ("kei", "k", "ei"),
   ("ken", "k", "en"), ("keng", "k", "eng"), ("kong", "k", "ong"), ("kou", "k", "ou"),
   ("ku", "k", "u"), ("kua", "k", "ua"), ("kuai", "k", "uai"), ("kuan", "k", "uan"),
   ("kuang", "k", "uang"), ("kui", "k", "uei"), ("kun", "k", "uen"), ("kuo", "k", "uo"),
   ("la", "l", "a"), ("lai", "l", "ai"), ("lan", "l", "an"), ("lang", "l", "ang"),
   ("lao", "l", "ao"), ("le", "l", "e"), ("lei", "l", "ei"), ("leng", "l", "eng"),
   ("li", "l", "i"), ("lia", "l", "ia"), ("lian", "l", "ian"), ("liang", "l", "iang"),
   ("liao", "l", "iao"), ("lie", "l", "ie"), ("lin", "l", "in"), ("ling", "l", "ing"),
   ("liu", "l", "iou"), ("lo", "l", "o"), ("long", "l", "ong"), ("lou", "l", "ou"),
   ("lu", "l", "u"), ("lv", "l", "v"), ("luan", "l", "uan"), ("lve", "l", "ve"),
   ("lue", "l", "ve"), ("lun", "l", "uen"), ("luo", "l", "uo"), ("ma", "m", "a"),
   ("mai", "m", "ai"), ("man", "m", "an"), ("mang", "m", "ang"), ("mao", "m", "ao"),
   ("me", "m", "e"), ("mei", "m", "ei"), ("men", "m", "en"), ("meng", "m", "eng"),
   ("mi", "m", "i"), ("mian", "m", "ian"), ("miao", "m", "iao"), ("mie", "m", "ie"),
   ("min", "m", "in"), ("ming", "m", "ing"), ("miu", "m", "iou"), ("mo", "m", "o"),
   ("mou", "m", "ou"), ("mu", "m", "u"), ("na", "n", "a"), ("nai", "n", "ai"), ("nan", "n", "an"),
   ("nang", "n", "ang"), ("nao", "n", "ao"), ("ne", "n", "e"), ("nei", "n", "ei"),
   ("nen", "n", "en"), ("neng", "n", "eng"), ("ni", "n", "i"), ("nia", "n", "ia"),
   ("nian", "n", "ian"), ("niang", "n", "iang"), ("niao", "n", "iao"), ("nie", "n", "ie"),
   ("nin", "n", "in"), ("ning", "n", "ing"), ("niu", "n", "iou"), ("nong", "n", "ong"),
   ("nou", "n", "ou"), ("nu", "n", "u"), ("nv", "n", "v"), ("nuan", "n", "uan"),
   ("nve", "n", "ve"), ("nue", "n", "ve"), ("nuo", "n", "uo"), ("o", "^", "o"), ("ou", "^", "ou"),
   ("pa", "p", "a"), ("pai", "p", "ai"), ("pan", "p", "an"), ("pang", "p", "ang"),
   ("pao", "p", "ao"), ("pe", "p", "e"), ("pei", "p", "ei"), ("pen", "p", "en"),
   ("peng", "p", "eng"), ("pi", "p", "i"), ("pian", "p", "ian"), ("piao", "p", "iao"),
   ("pie", "p", "ie"), ("pin", "p", "in"), ("ping", "p", "ing"), ("po", "p", "o"),
   ("pou", "p", "ou"), ("pu", "p", "u"), ("qi", "q", "i"), ("qia", "q", "ia"),
   ("qian", "q", "ian"), ("qiang", "q", "iang"), ("qiao", "q", "iao"), ("qie", "q", "ie"),
   ("qin", "q", "in"), ("qing", "q", "ing"), ("qiong", "q", "iong"), ("qiu", "q", "iou"),
   ("qu", "q", "v"), ("quan", "q", "van"), ("que", "q", "ve"), ("qun", "q", "vn"),
   ("ran", "r", "an"), ("rang", "r", "ang"), ("rao", "r", "ao"), ("re", "r", "e"),
   ("ren", "r", "en"), ("reng", "r", "eng"), ("ri", "r", "iii"), ("rong", "r", "ong"),
   ("rou", "r", "ou"), ("ru", "r", "u"), ("rua", "r", "ua"), ("ruan", "r", "uan"),
   ("rui", "r", "uei"), ("run", "r", "uen"), ("ruo", "r", "uo"), ("sa", "s", "a"),
   ("sai", "s", "ai"), ("san", "s", "an"), ("sang", "s", "ang"), ("sao", "s", "ao"),
   ("se", "s", "e"), ("sen", "s", "en"), ("seng", "s", "eng"), ("sha", "sh", "a"),
   ("shai", "sh", "ai"), ("shan", "sh", "an"), ("shang", "sh", "ang"), ("shao", "sh", "ao"),
   ("she", "sh", "e"), ("shei", "sh", "ei"), ("shen", "sh", "en"), ("sheng", "sh", "eng"),
   ("shi", "sh", "iii"), ("shou", "sh", "ou"), ("shu", "sh", "u"), ("shua", "sh", "ua"),
   ("shuai", "sh", "uai"), ("shuan", "sh", "uan"), ("shuang", "sh", "uang"),
   ("shui", "sh", "uei"), ("shun", "sh", "uen"), ("shuo", "sh", "uo"), ("si", "s", "ii"),
   ("song", "s", "ong"), ("sou", "s", "ou"), ("su", "s", "u"), ("suan", "s", "uan"),
   ("sui", "s", "uei"), ("sun", "s", "uen"), ("suo", "s", "uo"), ("ta", "t", "a"),
   ("tai", "t", "ai"), ("tan", "t", "an"), ("tang", "t", "ang"), ("tao", "t", "ao"),
   ("te", "t", "e"), ("tei", "t", "ei"), ("teng", "t", "eng"), ("ti", "t", "i"),
   ("tian", "t", "ian"), ("tiao", "t", "iao"), ("tie", "t", "ie"), ("ting", "t", "ing"),
   ("tong", "t", "ong"), ("tou", "t", "ou"), ("tu", "t", "u"), ("tuan", "t", "uan"),
   ("tui", "t", "uei"), ("tun", "t", "uen"), ("tuo", "t", "uo"), ("wa", "^", "ua"),
   ("wai", "^", "uai"), ("wan", "^", "uan"), ("wang", "^", "uang"), ("wei", "^", "uei"),
   ("wen", "^", "uen"), ("weng", "^", "ueng"), ("wo", "^", "uo"), ("wu", "^", "u"),
   ("xi", "x", "i"), ("xia", "x", "ia"), ("xian", "x", "ian"), ("xiang", "x", "iang"),
   ("xiao", "x", "iao"), ("xie", "x", "ie"), ("xin", "x", "in"), ("xing", "x", "ing"),
   ("xiong", "x", "iong"), ("xiu", "x", "iou"), ("xu", "x", "v"), ("xuan", "x", "van"),
   ("xue", "x", "ve"), ("xun", "x", "vn"), ("ya", "^", "ia"), ("yan", "^", "ian"),
   ("yang", "^", "iang"), ("yao", "^", "iao"), ("ye", "^", "ie"), ("yi", "^", "i"),
   ("yin", "^", "in"), ("ying", "^", "ing"), ("yo", "^", "iou"), ("yong", "^", "iong"),
   ("you", "^", "iou"), ("yu", "^", "v"), ("yuan", "^", "van"), ("yue", "^", "ve"),
   ("yun", "^", "vn"), ("za", "z", "a"), ("zai", "z", "ai"), ("zan", "z", "an"),
   ("zang", "z", "ang"), ("zao", "z", "ao"), ("ze", "z", "e"), ("zei", "z", "ei"),
   ("zen", "z", "en"), ("zeng", "z", "eng"), ("zha", "zh", "a"), ("zhai", "zh", "ai"),
   ("zhan", "zh", "an"), ("zhang", "zh", "ang"), ("zhao", "zh", "ao"), ("zhe", "zh", "e"),
   ("zhei", "zh", "ei"), ("zhen", "zh", "en"), ("zheng", "zh", "eng"), ("zhi", "zh", "iii"),
   ("zhong", "zh", "ong"), ("zhou", "zh", "ou"), ("zhu", "zh", "u"), ("zhua", "zh", "ua"),
   ("zhuai", "zh", "uai"), ("zhuan", "zh", "uan"), ("zhuang", "zh", "uang"),
   ("zhui", "zh", "uei"), ("zhun", "zh", "uen"), ("zhuo", "zh", "uo"), ("zi", "z", "ii"),
   ("zong", "z", "ong"), ("zou", "z", "ou"), ("zu", "z", "u"), ("zuan", "z", "uan"),
   ("zui", "z", "uei"), ("zun", "z", "uen"), ("zuo", "z", "uo")]

-- `_mapper["symbol_to_id"]`
def symbolTable : List (Str × Nat) :=
  symbolEntries.map fun (symbol, id) => (lit symbol, id)

-- `_mapper["id_to_symbol"]`
def idTable : List (Nat × Str) :=
  idEntries.map fun (id, symbol) => (id, lit symbol)

-- `_mapper["pinyin_dict"]`
def pinyinTable : List (Str × Str × Str) :=
  pinyinEntries.map fun (pinyin, initial, final) => (lit pinyin, lit initial, lit final)

theorem pinyinTable_initials : ∀ e ∈ pinyinTable, e.2.1 ∈ initials := by
  decide +kernel

theorem pinyinTable_finals : ∀ e ∈ pinyinTable, e.2.2 ∈ finals := by
  decide +kernel

-- The symbols that have an identifier are the declared ones.
theorem symbolTable_keys : symbolTable.map Prod.fst = BAKER_SYMBOLS := by
  decide +kernel

-- `_mapper["id_to_symbol"][id.toString()]`
def idToSymbol (id : Nat) : Option Str :=
  idTable.lookup id

variable {id : Nat}

theorem symbolTable_ids : symbolTable.map Prod.snd = List.range 219 := by
  decide +kernel

-- The two tables of identifiers are inverse to each other.
theorem idTable_eq : idTable = symbolTable.map Prod.swap := by
  have h : idEntries = symbolEntries.map Prod.swap := by decide +kernel
  rw [idTable, symbolTable, h, List.map_map, List.map_map]
  rfl

-- The identifier of a symbol is its position.
theorem getElem?_BAKER_SYMBOLS (h : (symbol, id) ∈ symbolTable) : BAKER_SYMBOLS[id]? = some symbol := by
  have ⟨k, hk⟩ := List.mem_iff_getElem?.mp h
  have hs : BAKER_SYMBOLS[k]? = some symbol := by rw [← symbolTable_keys, List.getElem?_map, hk]; rfl
  have hi : (List.range 219)[k]? = some id := by rw [← symbolTable_ids, List.getElem?_map, hk]; rfl
  have ⟨_, hi⟩ := List.getElem?_eq_some_iff.mp hi
  rw [List.getElem_range] at hi
  rwa [← hi]

-- The identifiers of the parts that the symbols are declared in.
theorem symbolTable_cases (h : (symbol, id) ∈ symbolTable) :
    (pad ++ pause)[id]? = some symbol ∨
    6 ≤ id ∧ id ≤ 27 ∧ symbol ∈ initials ∨
    28 ≤ id ∧ id ≤ 217 ∧ (∃ f ∈ finals, ∃ t ∈ tones, f ++ [t] = symbol) ∨
    symbol ∈ eos := by
  have hs := getElem?_BAKER_SYMBOLS h
  have hp : (pad ++ pause).length = 6 := rfl
  have hi : (pad ++ pause ++ initials).length = 28 := rfl
  have hf : (finals.flatMap fun i => tones.map fun j => i ++ [j]).length = 190 := rfl
  obtain hs | ⟨_, _, hs⟩ := List.getElem?_append_cases hs
  case inr => exact .inr <| .inr <| .inr hs
  obtain hs | ⟨_, _, hs⟩ := List.getElem?_append_cases hs
  case inr =>
    refine .inr <| .inr <| .inl ⟨by omega, by omega, ?_⟩
    simpa only [List.mem_flatMap, List.mem_map] using hs
  obtain hs | ⟨_, _, hs⟩ := List.getElem?_append_cases hs
  case inr =>
    rw [List.length_append] at hi
    exact .inr <| .inl ⟨by omega, by omega, hs⟩
  case inl => exact .inl hs

-- Without its last code unit, no symbol but a final with a tone is a final.
theorem dropLast_not_mem_finals : ∀ s ∈ pad ++ pause ++ initials ++ eos, s.dropLast ∉ finals := by
  decide +kernel

theorem hash_not_mem_finals : lit "#" ∉ finals := by
  decide

theorem symbolTable_markers (h : (symbol, id) ∈ symbolTable) (hs : symbol.dropLast = lit "#") :
    2 ≤ id ∧ id ≤ 5 := by
  obtain hp | ⟨_, _, hi⟩ | ⟨_, _, f, hf, t, _, he⟩ | he := symbolTable_cases h
  case inl =>
    have ⟨hl, _⟩ := List.getElem?_eq_some_iff.mp hp
    have hl : id < 6 := hl
    refine ⟨?_, by omega⟩
    by_contra hid
    have hn : ∀ s ∈ (pad ++ pause).take 2, s.dropLast ≠ lit "#" := by decide
    rw [← List.getElem?_take_of_lt (by omega : id < 2)] at hp
    exact hn _ (List.mem_of_getElem? hp) hs
  case inr.inl =>
    have hn : ∀ s ∈ initials, s.dropLast ≠ lit "#" := by decide
    exact absurd hs <| hn _ hi
  case inr.inr.inl =>
    subst he
    rw [List.dropLast_concat] at hs
    exact absurd (hs ▸ hf) hash_not_mem_finals
  case inr.inr.inr =>
    have hn : ∀ s ∈ eos, s.dropLast ≠ lit "#" := by decide
    exact absurd hs <| hn _ he

theorem symbolTable_initials (h : (symbol, id) ∈ symbolTable) (hs : symbol ∈ initials) : 6 ≤ id ∧ id ≤ 27 := by
  obtain hp | ⟨hl, hr, _⟩ | ⟨_, _, _, _, t, ht, he⟩ | he := symbolTable_cases h
  case inl =>
    have hn : ∀ s ∈ pad ++ pause, s ∉ initials := by decide
    exact absurd hs <| hn _ <| List.mem_of_getElem? hp
  case inr.inl => exact ⟨hl, hr⟩
  case inr.inr.inl =>
    have hn : ∀ s ∈ initials, s.getLast?.all (· ∉ tones) := by decide
    exact absurd ht <| by simpa [← he] using hn _ hs
  case inr.inr.inr =>
    have hn : ∀ s ∈ eos, s ∉ initials := by decide
    exact absurd hs <| hn _ he

theorem symbolTable_toned (h : (symbol, id) ∈ symbolTable) (hs : symbol.dropLast ∈ finals) :
    28 ≤ id ∧ id ≤ 217 := by
  obtain hp | ⟨_, _, hi⟩ | ⟨hl, hr, _⟩ | he := symbolTable_cases h
  case inr.inr.inl => exact ⟨hl, hr⟩
  all_goals refine absurd hs <| dropLast_not_mem_finals _ ?_
  case inl =>
    have hp := List.mem_of_getElem? hp
    simp only [List.append_assoc, List.mem_append] at hp ⊢
    exact hp.imp_right .inl
  case inr.inl     => simp [hi]
  case inr.inr.inr => simp [he]

theorem length_BAKER_SYMBOLS : BAKER_SYMBOLS.length = 219 := by
  have h := congrArg List.length symbolTable_ids
  rw [List.length_map, List.length_range] at h
  rw [← symbolTable_keys, List.length_map, h]

theorem mem_BAKER_SYMBOLS :
    s ∈ BAKER_SYMBOLS ↔
    s ∈ pad ++ pause ++ initials ++ eos ∨ ∃ f ∈ finals, ∃ t ∈ tones, f ++ [t] = s := by
  simp only [BAKER_SYMBOLS, List.mem_append, List.mem_flatMap, List.mem_map]
  exact or_right_comm

theorem pause_mem (h : s ∈ pause) : s ∈ BAKER_SYMBOLS :=
  mem_BAKER_SYMBOLS.mpr <| .inl <| by simp [h]

theorem initial_mem (h : s ∈ initials) : s ∈ BAKER_SYMBOLS :=
  mem_BAKER_SYMBOLS.mpr <| .inl <| by simp [h]

-- A final only occurs together with its tone.
theorem toned_mem_iff (hf : f ∈ finals) : f ++ [t] ∈ BAKER_SYMBOLS ↔ t ∈ tones := by
  constructor
  case mpr => exact fun ht => mem_BAKER_SYMBOLS.mpr <| .inr ⟨f, hf, t, ht, rfl⟩
  case mp =>
    intro h
    cases mem_BAKER_SYMBOLS.mp h
    case inl h =>
      exact absurd (by simpa using hf) (dropLast_not_mem_finals _ h)
    case inr h =>
      have ⟨f', _, t', ht, he⟩ := h
      have ⟨_, he⟩ := List.append_inj' he rfl
      injection he with he
      exact he ▸ ht

theorem marker_mem_iff : lit "#" ++ [d] ∈ BAKER_SYMBOLS ↔ d ∈ lit "0123" := by
  constructor
  case mpr =>
    have hp : ∀ d ∈ lit "0123", lit "#" ++ [d] ∈ pause := List.forall_mem_of_all <| by decide
    exact fun h => pause_mem <| hp d h
  case mp =>
    intro h
    cases mem_BAKER_SYMBOLS.mp h
    case inl h =>
      have hn : ∀ s ∈ pad ++ pause ++ initials ++ eos,
        s.dropLast = lit "#" → s.getLast?.all (· ∈ lit "0123") := by decide +kernel
      simpa using hn _ h (by simp)
    case inr h =>
      have ⟨f, hf, t, _, he⟩ := h
      have ⟨he, _⟩ := List.append_inj' he rfl
      exact absurd (he ▸ hf) hash_not_mem_finals

end Baker
