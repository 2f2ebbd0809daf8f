import PatternAction.Text.CodeTable

namespace PatternAction.Text.Script

-- Abbreviation and name of each script by turns.
def names : Array String :=
  ((
  "Adlm Adlam Aghb Caucasian_Albanian Ahom Ahom Arab Arabic Armi Imperial_Aramaic Armn
   Armenian Avst Avestan Bali Balinese Bamu Bamum Bass Bassa_Vah Batk Batak Beng Bengali Bhks
   Bhaiksuki Bopo Bopomofo Brah Brahmi Brai Braille Bugi Buginese Buhd Buhid Cakm Chakma Cans
   Canadian_Aboriginal Cari Carian Cham Cham Cher Cherokee Chrs Chorasmian Copt Coptic Cpmn
   Cypro_Minoan Cprt Cypriot Cyrl Cyrillic Deva Devanagari Diak Dives_Akuru Dogr Dogra Dsrt
   Deseret Dupl Duployan Egyp Egyptian_Hieroglyphs Elba Elbasan Elym Elymaic Ethi Ethiopic
   Geor Georgian Glag Glagolitic Gong Gunjala_Gondi Gonm Masaram_Gondi Goth Gothic Gran
   Grantha Grek Greek Gujr Gujarati Guru Gurmukhi Hang Hangul Hani Han Hano Hanunoo Hatr
   Hatran Hebr Hebrew Hira Hiragana Hluw Anatolian_Hieroglyphs Hmng Pahawh_Hmong Hmnp
   Nyiakeng_Puachue_Hmong Hung Old_Hungarian Ital Old_Italic Java Javanese Kali Kayah_Li Kana
   Katakana Kawi Kawi Khar Kharoshthi Khmr Khmer Khoj Khojki Kits Khitan_Small_Script Knda
   Kannada Kthi Kaithi Lana Tai_Tham Laoo Lao Latn Latin Lepc Lepcha Limb Limbu Lina Linear_A
   Linb Linear_B Lisu Lisu Lyci Lycian Lydi Lydian Mahj Mahajani Maka Makasar Mand Mandaic
   Mani Manichaean Marc Marchen Medf Medefaidrin Mend Mende_Kikakui Merc Meroitic_Cursive Mero
   Meroitic_Hieroglyphs Mlym Malayalam Modi Modi Mong Mongolian Mroo Mro Mtei Meetei_Mayek
   Mult Multani Mymr Myanmar Nagm Nag_Mundari Nand Nandinagari Narb Old_North_Arabian Nbat
   Nabataean Newa Newa Nkoo Nko Nshu Nushu Ogam Ogham Olck Ol_Chiki Orkh Old_Turkic Orya Oriya
   Osge Osage Osma Osmanya Ougr Old_Uyghur Palm Palmyrene Pauc Pau_Cin_Hau Perm Old_Permic
   Phag Phags_Pa Phli Inscriptional_Pahlavi Phlp Psalter_Pahlavi Phnx Phoenician Plrd Miao
   Prti Inscriptional_Parthian Rjng Rejang Rohg Hanifi_Rohingya Runr Runic Samr Samaritan Sarb
   Old_South_Arabian Saur Saurashtra Sgnw SignWriting Shaw Shavian Shrd Sharada Sidd Siddham
   Sind Khudawadi Sinh Sinhala Sogd Sogdian Sogo Old_Sogdian Sora Sora_Sompeng Soyo Soyombo
   Sund Sundanese Sylo Syloti_Nagri Syrc Syriac Tagb Tagbanwa Takr Takri Tale Tai_Le Talu
   New_Tai_Lue Taml Tamil Tang Tangut Tavt Tai_Viet Telu Telugu Tfng Tifinagh Tglg Tagalog
   Thaa Thaana Thai Thai Tibt Tibetan Tirh Tirhuta Tnsa Tangsa Toto Toto Ugar Ugaritic Vaii
   Vai Vith Vithkuqi Wara Warang_Citi Wcho Wancho Xpeo Old_Persian Xsux Cuneiform Yezi Yezidi
   Yiii Yi Zanb Zanabazar_Square Zinh Inherited Zyyy Common Zzzz Unknown Gara Garay Gukh
   Gurung_Khema Krai Kirat_Rai Onao Ol_Onal Sunu Sunuwar Todr Todhri Tutg Tulu_Tigalari Berf
   Beria_Erfe Sidt Sidetic Tayo Tai_Yo Tols Tolong_Siki"
  ).split Char.isWhitespace).toArray.map (·.toString) |>.filter (· ≠ "")

-- Runs of characters of one script, each run as the script's position in `names`, counted in pairs,
-- and the run's length.
def runs : Array Nat := numbers
  "162 65 69 26 162 6 69 26 162 47 69 1 162 15 69 1 162 5 69 23 162 1 69 31 162 1 69 449 162
   39 69 5 162 5 13 2 162 20 161 112 43 4 162 1 43 3 163 2 43 4 162 1 43 1 163 4 43 1 162 1 43
   1 162 1 43 3 163 1 43 1 163 1 43 20 163 1 43 63 24 14 43 16 27 133 161 2 27 169 163 1 5 38
   163 2 5 50 163 2 5 3 163 1 50 55 163 8 50 27 163 4 50 6 163 11 3 5 162 1 3 6 162 1 3 14 162
   1 3 3 162 1 3 32 162 1 3 10 161 11 3 26 161 1 3 108 162 1 3 34 134 14 163 1 134 60 163 2
   134 3 3 48 145 50 163 14 98 59 163 2 98 3 119 46 163 2 119 15 163 1 79 28 163 2 79 1 163 1
   134 11 163 5 3 34 163 5 3 75 162 1 3 29 28 81 161 4 28 15 162 2 28 26 11 4 163 1 11 8 163 2
   11 2 163 2 11 22 163 1 11 7 163 1 11 1 163 3 11 4 163 2 11 9 163 2 11 2 163 2 11 4 163 8 11
   1 163 4 11 2 163 1 11 5 163 2 11 25 163 2 45 3 163 1 45 6 163 4 45 2 163 2 45 22 163 1 45 7
   163 1 45 2 163 1 45 2 163 1 45 2 163 2 45 1 163 1 45 5 163 4 45 2 163 2 45 3 163 3 45 1 163
   7 45 4 163 1 45 1 163 7 45 17 163 10 44 3 163 1 44 9 163 1 44 3 163 1 44 22 163 1 44 7 163
   1 44 2 163 1 44 5 163 2 44 10 163 1 44 3 163 1 44 3 163 2 44 1 163 15 44 4 163 2 44 12 163
   7 44 7 163 1 103 3 163 1 103 8 163 2 103 2 163 2 103 22 163 1 103 7 163 1 103 2 163 1 103 5
   163 2 103 9 163 2 103 2 163 2 103 3 163 7 103 3 163 4 103 2 163 1 103 5 163 2 103 18 163 10
   139 2 163 1 139 6 163 3 139 3 163 1 139 4 163 3 139 2 163 1 139 1 163 1 139 2 163 3 139 2
   163 3 139 3 163 3 139 12 163 4 139 5 163 3 139 3 163 1 139 4 163 2 139 1 163 6 139 1 163 14
   139 21 163 5 142 13 163 1 142 3 163 1 142 23 163 1 142 16 163 2 142 9 163 1 142 3 163 1 142
   4 163 7 142 2 163 1 142 3 163 1 142 2 163 2 142 4 163 2 142 10 163 7 142 9 65 13 163 1 65 3
   163 1 65 23 163 1 65 10 163 1 65 5 163 2 65 9 163 1 65 3 163 1 65 4 163 7 65 2 163 5 65 3
   163 1 65 4 163 2 65 10 163 1 65 3 163 12 86 13 163 1 86 3 163 1 86 51 163 1 86 3 163 1 86 6
   163 4 86 16 163 2 86 26 163 1 127 3 163 1 127 18 163 3 127 24 163 1 127 9 163 1 127 1 163 2
   127 7 163 3 127 1 163 4 127 6 163 1 127 1 163 1 127 8 163 6 127 10 163 2 127 3 163 12 146
   58 163 4 162 1 146 28 163 37 68 2 163 1 68 1 163 1 68 5 163 1 68 24 163 1 68 1 163 1 68 23
   163 2 68 5 163 1 68 1 163 1 68 7 163 1 68 10 163 2 68 4 163 32 147 72 163 1 147 36 163 4
   147 39 163 1 147 36 163 1 147 15 163 1 147 7 162 4 147 2 163 37 92 160 37 38 163 1 37 1 163
   5 37 1 163 2 37 43 162 1 37 4 46 256 36 73 163 1 36 4 163 2 36 7 163 1 36 1 163 1 36 4 163
   2 36 41 163 1 36 4 163 2 36 33 163 1 36 4 163 2 36 7 163 1 36 1 163 1 36 4 163 2 36 15 163
   1 36 57 163 1 36 4 163 2 36 67 163 2 36 32 163 3 36 26 163 6 22 86 163 2 22 6 163 2 19 640
   100 29 163 3 118 75 162 3 118 11 163 7 144 22 163 9 144 1 48 21 162 2 163 9 17 20 163 12
   135 13 163 1 135 3 163 1 135 2 163 12 62 94 163 2 62 10 163 6 62 10 163 6 88 2 162 2 88 1
   162 1 88 20 163 6 88 89 163 7 88 43 163 5 19 70 163 10 71 31 163 1 71 12 163 4 71 12 163 4
   71 1 163 3 71 12 137 30 163 2 137 5 163 11 138 44 163 4 138 26 163 6 138 11 163 3 138 2 62
   32 16 28 163 2 16 2 67 63 163 1 67 29 163 2 67 11 163 6 67 10 163 6 67 14 163 2 161 46 163
   2 161 12 163 20 7 77 163 1 7 50 132 64 10 52 163 8 10 4 70 56 163 3 70 15 163 3 70 3 101 48
   27 11 163 5 37 43 163 2 37 3 132 8 163 8 161 3 162 1 161 13 162 1 161 7 162 4 161 1 162 6
   161 1 162 3 161 2 162 1 163 5 69 38 43 5 27 1 69 49 43 5 69 4 43 5 69 13 27 1 69 70 43 1
   161 64 69 256 43 22 163 2 43 6 163 2 43 38 163 2 43 6 163 2 43 8 163 1 43 1 163 1 43 1 163
   1 43 1 163 1 43 31 163 2 43 53 163 1 43 15 163 1 43 14 163 2 43 6 163 1 43 19 163 2 43 3
   163 1 43 9 163 1 162 12 161 2 162 87 163 1 162 11 69 1 163 2 162 11 69 1 162 15 163 1 69 13
   163 3 162 34 163 14 161 33 163 15 162 38 43 1 162 3 69 2 162 6 69 1 162 27 69 1 162 17 69
   41 162 3 163 4 162 666 163 22 162 11 163 21 162 928 15 256 162 628 163 2 162 138 38 96 69
   32 24 116 163 5 24 7 37 38 163 1 37 1 163 5 37 1 163 2 143 56 163 7 143 2 163 14 143 1 36
   23 163 9 36 7 163 1 36 7 163 1 36 7 163 1 36 7 163 1 36 7 163 1 36 7 163 1 36 7 163 1 36 7
   163 1 27 32 162 94 163 34 47 26 163 1 47 89 163 12 47 214 163 26 162 21 47 1 162 1 47 1 162
   25 47 9 161 4 46 2 162 8 47 4 162 4 163 1 51 86 163 2 161 2 162 2 51 3 162 1 59 90 162 2 59
   3 163 5 13 43 163 1 46 94 163 1 162 16 13 32 162 38 163 9 162 1 59 16 46 31 163 1 162 64 46
   31 162 81 59 47 162 1 59 88 162 168 47 6592 162 64 47 20992 159 1165 163 3 159 55 163 9 74
   48 152 300 163 20 27 96 8 88 163 8 162 34 69 102 162 3 69 82 163 20 69 15 133 45 163 3 162
   10 163 6 110 56 163 8 121 70 163 8 121 12 163 6 28 32 58 46 162 1 58 1 116 36 163 11 116 1
   46 29 163 3 57 78 163 1 162 1 57 10 163 4 57 2 92 31 163 1 21 55 163 9 21 14 163 2 21 10
   163 2 21 4 92 32 141 67 163 24 141 5 90 23 163 10 36 6 163 2 36 6 163 2 36 6 163 9 36 7 163
   1 36 7 163 1 69 43 162 1 69 9 43 1 69 4 162 2 163 4 22 80 90 46 163 2 90 10 163 6 46 11172
   163 12 46 23 163 4 46 49 163 8452 47 366 163 2 47 106 163 38 69 7 163 12 5 5 163 5 50 26
   163 1 50 5 163 1 50 1 163 1 50 2 163 1 50 2 163 1 50 10 3 494 162 2 3 144 163 32 3 16 161
   16 162 10 163 6 161 14 27 2 162 35 163 1 162 19 163 1 162 4 163 4 3 5 163 1 3 135 163 2 162
   1 163 1 162 32 69 26 162 6 69 26 162 11 59 10 162 1 59 45 162 2 46 31 163 3 46 6 163 2 46 6
   163 2 46 6 163 2 46 3 163 3 162 7 163 1 162 7 163 10 162 5 163 2 73 12 163 1 73 26 163 1 73
   19 163 1 73 2 163 1 73 15 163 2 73 14 163 34 73 123 163 5 162 3 163 4 162 45 163 3 162 9 43
   79 163 1 162 13 163 3 43 1 163 47 162 45 161 1 163 130 75 29 163 3 20 49 163 15 161 1 162
   27 163 4 56 36 163 9 56 3 41 27 163 5 109 43 163 5 151 30 163 1 151 1 156 36 163 4 156 14
   163 42 31 80 123 48 105 30 163 2 105 10 163 6 104 36 163 4 104 36 163 4 34 40 163 8 1 52
   163 11 1 1 153 11 163 1 153 15 163 1 153 7 163 1 153 2 163 1 153 11 163 1 153 15 163 1 153
   7 163 1 153 2 163 3 169 52 163 12 72 311 163 9 72 22 163 10 72 8 163 24 69 6 163 1 69 42
   163 1 69 9 163 69 26 6 163 2 26 1 163 1 26 44 163 1 26 2 163 3 26 1 163 2 26 1 4 22 163 1 4
   9 107 32 96 31 163 8 96 9 163 48 49 19 163 1 49 2 163 5 49 5 113 28 163 3 113 1 76 26 163 5
   76 1 172 26 163 38 85 32 84 24 163 4 84 20 163 2 84 46 61 4 163 1 61 2 163 5 61 8 163 1 61
   3 163 1 61 29 163 2 61 3 163 4 61 10 163 7 61 9 163 7 120 32 95 32 163 32 80 39 163 4 80 12
   163 9 6 54 163 3 6 7 115 22 163 2 115 8 111 19 163 5 111 8 112 18 163 7 112 4 163 12 112 7
   163 80 102 73 163 55 55 51 163 13 55 51 163 7 55 6 117 40 163 8 117 10 163 6 164 38 163 3
   164 29 163 8 164 2 163 208 3 31 163 1 158 42 163 1 158 3 163 2 158 2 163 16 3 6 163 8 3 9
   163 33 3 6 129 40 163 8 128 42 163 22 106 26 163 38 23 28 163 20 35 23 163 9 14 78 163 4 14
   36 163 9 14 1 66 67 163 10 66 1 163 2 130 25 163 7 130 10 163 6 18 53 163 1 18 18 163 8 77
   39 163 9 124 96 163 1 127 20 163 11 63 18 163 1 63 47 163 62 91 7 163 1 91 1 163 1 91 4 163
   1 91 15 163 1 91 11 163 6 126 59 163 5 126 10 163 6 42 4 163 1 42 8 163 2 42 2 163 2 42 22
   163 1 42 7 163 1 42 2 163 1 42 5 163 1 161 1 42 9 163 2 42 2 163 2 42 3 163 2 42 1 163 6 42
   1 163 5 42 7 163 2 42 7 163 3 42 5 163 11 170 10 163 1 170 1 163 2 170 1 163 1 170 38 163 1
   170 10 163 1 170 1 163 2 170 1 163 1 170 4 163 1 170 10 163 1 170 2 163 8 170 2 163 29 97
   92 163 1 97 5 163 30 148 72 163 8 148 10 163 166 125 54 163 2 125 38 163 34 87 69 163 11 87
   10 163 6 88 13 163 19 136 58 163 6 136 10 163 6 92 20 163 28 2 27 163 2 2 15 163 4 2 23 163
   185 30 60 163 100 154 83 163 12 154 1 29 7 163 2 29 1 163 2 29 8 163 1 29 2 163 1 29 30 163
   1 29 2 163 2 29 12 163 9 29 10 163 70 94 8 163 2 94 46 163 2 94 11 163 27 160 72 163 8 131
   83 163 13 19 16 108 57 163 7 28 10 163 86 124 8 163 88 168 34 163 14 168 10 163 6 12 9 163
   1 12 45 163 1 12 14 163 10 12 29 163 3 81 32 163 2 81 22 163 1 81 14 163 73 40 7 163 1 40 2
   163 1 40 44 163 3 40 1 163 1 40 2 163 1 40 9 163 8 40 10 163 6 39 6 163 1 39 2 163 1 39 37
   163 1 39 2 163 1 39 6 163 7 39 10 163 6 174 44 163 4 174 10 163 246 78 25 163 7 60 17 163 1
   60 41 163 3 60 29 163 85 74 1 163 15 139 50 163 13 139 1 157 922 163 102 157 111 163 1 157
   5 163 11 157 196 163 2636 25 99 163 13 33 1110 163 10 33 3995 163 5 52 583 163 6841 165 58
   163 1734 8 569 163 7 89 31 163 1 89 10 163 4 89 2 149 79 163 1 149 10 163 6 9 30 163 2 9 6
   163 10 53 70 163 10 53 10 163 1 53 7 163 1 53 21 163 5 53 19 163 432 166 58 163 198 82 91
   163 5 171 25 163 2 171 25 163 44 114 75 163 4 114 57 163 7 114 17 163 64 140 1 99 1 47 2 64
   1 163 11 47 7 163 9 140 6912 64 470 163 41 64 1 140 31 163 97 140 115 163 8701 59 4 163 1
   59 7 163 1 59 2 163 1 59 1 51 287 59 3 163 15 51 1 163 29 51 3 163 2 59 1 163 14 59 4 163 8
   99 396 163 2308 32 107 163 5 32 13 163 3 32 9 163 7 32 10 163 2 32 4 162 4 163 3932 162 253
   163 3 162 436 163 6 162 23 163 15 162 17 163 15 161 46 163 2 161 23 163 9 162 116 163 60
   162 246 163 10 162 39 163 2 162 62 161 3 162 17 161 8 162 2 161 7 162 30 161 4 162 61 163
   21 43 70 163 122 162 20 163 12 162 20 163 12 162 87 163 9 162 25 163 135 162 85 163 1 162
   71 163 1 162 2 163 2 162 1 163 2 162 2 163 2 162 4 163 1 162 12 163 1 162 1 163 1 162 7 163
   1 162 65 163 1 162 4 163 2 162 8 163 1 162 7 163 1 162 28 163 1 162 4 163 1 162 5 163 1 162
   1 163 3 162 7 163 1 162 340 163 2 162 292 163 2 162 50 122 652 163 15 122 5 163 1 122 15
   163 1104 69 31 163 6 69 6 163 213 38 7 163 1 38 17 163 2 38 7 163 1 38 2 163 1 38 5 163 5
   27 62 163 33 27 1 163 112 54 45 163 3 54 14 163 2 54 10 163 4 54 2 163 320 150 31 163 17
   155 58 163 5 155 1 163 464 93 42 163 214 167 43 163 4 167 1 163 192 173 31 163 1 173 22 163
   8 173 2 163 224 36 7 163 1 36 4 163 1 36 2 163 1 36 15 163 1 83 197 163 2 83 16 163 41 0 76
   163 4 0 10 163 4 0 2 163 785 162 68 163 76 162 61 163 194 3 4 163 1 3 27 163 1 3 2 163 1 3
   1 163 2 3 1 163 1 3 10 163 1 3 4 163 1 3 1 163 1 3 1 163 6 3 1 163 4 3 1 163 1 3 1 163 1 3
   1 163 1 3 3 163 1 3 2 163 1 3 1 163 2 3 1 163 1 3 1 163 1 3 1 163 1 3 1 163 1 3 1 163 1 3 2
   163 1 3 1 163 2 3 4 163 1 3 7 163 1 3 4 163 1 3 4 163 1 3 1 163 1 3 10 163 1 3 17 163 5 3 3
   163 1 3 5 163 1 3 17 163 52 3 2 163 270 162 44 163 4 162 100 163 12 162 15 163 2 162 15 163
   1 162 15 163 1 162 37 163 10 162 174 163 56 162 26 51 1 162 2 163 13 162 44 163 4 162 9 163
   7 162 2 163 14 162 6 163 154 162 985 163 3 162 17 163 3 162 13 163 3 162 218 163 6 162 12
   163 4 162 1 163 15 162 12 163 4 162 56 163 8 162 10 163 6 162 40 163 8 162 30 163 2 162 12
   163 4 162 2 163 14 162 9 163 39 162 344 163 8 162 14 163 2 162 13 163 3 162 11 163 3 162 57
   163 1 162 1 163 4 162 16 163 2 162 12 163 4 162 10 163 7 162 147 163 1 162 103 163 1029 47
   42720 163 32 47 4382 163 2 47 5774 163 2 47 7473 163 15 47 622 163 2466 47 542 163 1506 47
   4939 163 5 47 8490 163 707463 162 1 163 30 162 96 163 128 161 240 163 196112"

-- The first code points of the runs, and the script of each run.
def table : Array Nat × Array Nat :=
  go (runs.size / 2) 0 0 (#[], #[])
where
  go : Nat → Nat → Nat → Array Nat × Array Nat → Array Nat × Array Nat
    | 0, _, _, found => found
    | n + 1, i, start, (starts, scripts) =>
      go n (i + 2) (start + runs.getD (i + 1) 0) (starts.push start, scripts.push (runs.getD i 0))

def ofChar (c : Char) : Nat :=
  table.2.getD (rank table.1 c.toNat 0 table.1.size - 1) 0

def find? (p : String → Bool) : Option Nat :=
  (names.findIdx? p).map (· / 2)

end PatternAction.Text.Script
