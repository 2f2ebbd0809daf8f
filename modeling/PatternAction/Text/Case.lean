import PatternAction.Text.CodeTable

namespace PatternAction.Text

-- The image of a code point under the first shift that moves it.
def shifted? (shifts : List Shift) (n : Nat) : Option Nat :=
  shifts.findSome? (·.image? n)

def lowerShifts : List Shift := Shift.ofText
  "65 97 26 1 192 224 23 1 216 248 7 1 256 257 24 2 306 307 3 2 313 314 8 2 330 331 23 2 376
   255 1 1 377 378 3 2 385 595 1 1 386 387 2 2 390 596 1 1 391 392 1 1 393 598 2 1 395 396 1 1
   398 477 1 1 399 601 1 1 400 603 1 1 401 402 1 1 403 608 1 1 404 611 1 1 406 617 1 1 407 616
   1 1 408 409 1 1 412 623 1 1 413 626 1 1 415 629 1 1 416 417 3 2 422 640 1 1 423 424 1 1 425
   643 1 1 428 429 1 1 430 648 1 1 431 432 1 1 433 650 2 1 435 436 2 2 439 658 1 1 440 441 1 1
   444 445 1 1 452 454 1 1 453 454 1 1 455 457 1 1 456 457 1 1 458 460 1 1 459 460 9 2 478 479
   9 2 497 499 1 1 498 499 2 2 502 405 1 1 503 447 1 1 504 505 20 2 544 414 1 1 546 547 9 2
   570 11365 1 1 571 572 1 1 573 410 1 1 574 11366 1 1 577 578 1 1 579 384 1 1 580 649 1 1 581
   652 1 1 582 583 5 2 880 881 2 2 886 887 1 1 895 1011 1 1 902 940 1 1 904 941 3 1 908 972 1
   1 910 973 2 1 913 945 17 1 931 963 9 1 975 983 1 1 984 985 12 2 1012 952 1 1 1015 1016 1 1
   1017 1010 1 1 1018 1019 1 1 1021 891 3 1 1024 1104 16 1 1040 1072 32 1 1120 1121 17 2 1162
   1163 27 2 1216 1231 1 1 1217 1218 7 2 1232 1233 48 2 1329 1377 38 1 4256 11520 38 1 4295
   11559 1 1 4301 11565 1 1 5024 43888 80 1 5104 5112 6 1 7305 7306 1 1 7312 4304 43 1 7357
   4349 3 1 7680 7681 75 2 7838 223 1 1 7840 7841 48 2 7944 7936 8 1 7960 7952 6 1 7976 7968 8
   1 7992 7984 8 1 8008 8000 6 1 8025 8017 4 2 8040 8032 8 1 8072 8064 8 1 8088 8080 8 1 8104
   8096 8 1 8120 8112 2 1 8122 8048 2 1 8124 8115 1 1 8136 8050 4 1 8140 8131 1 1 8152 8144 2
   1 8154 8054 2 1 8168 8160 2 1 8170 8058 2 1 8172 8165 1 1 8184 8056 2 1 8186 8060 2 1 8188
   8179 1 1 8486 969 1 1 8490 107 1 1 8491 229 1 1 8498 8526 1 1 8544 8560 16 1 8579 8580 1 1
   9398 9424 26 1 11264 11312 48 1 11360 11361 1 1 11362 619 1 1 11363 7549 1 1 11364 637 1 1
   11367 11368 3 2 11373 593 1 1 11374 625 1 1 11375 592 1 1 11376 594 1 1 11378 11379 1 1
   11381 11382 1 1 11390 575 2 1 11392 11393 50 2 11499 11500 2 2 11506 11507 1 1 42560 42561
   23 2 42624 42625 14 2 42786 42787 7 2 42802 42803 31 2 42873 42874 2 2 42877 7545 1 1 42878
   42879 5 2 42891 42892 1 1 42893 613 1 1 42896 42897 2 2 42902 42903 10 2 42922 614 1 1
   42923 604 1 1 42924 609 1 1 42925 620 1 1 42926 618 1 1 42928 670 1 1 42929 647 1 1 42930
   669 1 1 42931 43859 1 1 42932 42933 8 2 42948 42900 1 1 42949 642 1 1 42950 7566 1 1 42951
   42952 2 2 42955 612 1 1 42956 42957 8 2 42972 411 1 1 42997 42998 1 1 65313 65345 26 1
   66560 66600 40 1 66736 66776 36 1 66928 66967 11 1 66940 66979 15 1 66956 66995 7 1 66964
   67003 2 1 68736 68800 51 1 68944 68976 22 1 71840 71872 32 1 93760 93792 32 1 93856 93883
   25 1 125184 125218 34 1"

def upperShifts : List Shift := Shift.ofText
  "97 65 26 1 181 924 1 1 224 192 23 1 248 216 7 1 255 376 1 1 257 256 24 2 305 73 1 1 307 306
   3 2 314 313 8 2 331 330 23 2 378 377 3 2 383 83 1 1 384 579 1 1 387 386 2 2 392 391 1 1 396
   395 1 1 402 401 1 1 405 502 1 1 409 408 1 1 410 573 1 1 411 42972 1 1 414 544 1 1 417 416 3
   2 424 423 1 1 429 428 1 1 432 431 1 1 436 435 2 2 441 440 1 1 445 444 1 1 447 503 1 1 453
   452 1 1 454 452 1 1 456 455 1 1 457 455 1 1 459 458 1 1 460 458 1 1 462 461 8 2 477 398 1 1
   479 478 9 2 498 497 1 1 499 497 1 1 501 500 1 1 505 504 20 2 547 546 9 2 572 571 1 1 575
   11390 2 1 578 577 1 1 583 582 5 2 592 11375 1 1 593 11373 1 1 594 11376 1 1 595 385 1 1 596
   390 1 1 598 393 2 1 601 399 1 1 603 400 1 1 604 42923 1 1 608 403 1 1 609 42924 1 1 611 404
   1 1 612 42955 1 1 613 42893 1 1 614 42922 1 1 616 407 1 1 617 406 1 1 618 42926 1 1 619
   11362 1 1 620 42925 1 1 623 412 1 1 625 11374 1 1 626 413 1 1 629 415 1 1 637 11364 1 1 640
   422 1 1 642 42949 1 1 643 425 1 1 647 42929 1 1 648 430 1 1 649 580 1 1 650 433 2 1 652 581
   1 1 658 439 1 1 669 42930 1 1 670 42928 1 1 837 921 1 1 881 880 2 2 887 886 1 1 891 1021 3
   1 940 902 1 1 941 904 3 1 945 913 17 1 962 931 1 1 963 931 9 1 972 908 1 1 973 910 2 1 976
   914 1 1 977 920 1 1 981 934 1 1 982 928 1 1 983 975 1 1 985 984 12 2 1008 922 1 1 1009 929
   1 1 1010 1017 1 1 1011 895 1 1 1013 917 1 1 1016 1015 1 1 1019 1018 1 1 1072 1040 32 1 1104
   1024 16 1 1121 1120 17 2 1163 1162 27 2 1218 1217 7 2 1231 1216 1 1 1233 1232 48 2 1377
   1329 38 1 4304 7312 43 1 4349 7357 3 1 5112 5104 6 1 7296 1042 1 1 7297 1044 1 1 7298 1054
   1 1 7299 1057 2 1 7301 1058 1 1 7302 1066 1 1 7303 1122 1 1 7304 42570 1 1 7306 7305 1 1
   7545 42877 1 1 7549 11363 1 1 7566 42950 1 1 7681 7680 75 2 7835 7776 1 1 7841 7840 48 2
   7936 7944 8 1 7952 7960 6 1 7968 7976 8 1 7984 7992 8 1 8000 8008 6 1 8017 8025 4 2 8032
   8040 8 1 8048 8122 2 1 8050 8136 4 1 8054 8154 2 1 8056 8184 2 1 8058 8170 2 1 8060 8186 2
   1 8112 8120 2 1 8126 921 1 1 8144 8152 2 1 8160 8168 2 1 8165 8172 1 1 8526 8498 1 1 8560
   8544 16 1 8580 8579 1 1 9424 9398 26 1 11312 11264 48 1 11361 11360 1 1 11365 570 1 1 11366
   574 1 1 11368 11367 3 2 11379 11378 1 1 11382 11381 1 1 11393 11392 50 2 11500 11499 2 2
   11507 11506 1 1 11520 4256 38 1 11559 4295 1 1 11565 4301 1 1 42561 42560 23 2 42625 42624
   14 2 42787 42786 7 2 42803 42802 31 2 42874 42873 2 2 42879 42878 5 2 42892 42891 1 1 42897
   42896 2 2 42900 42948 1 1 42903 42902 10 2 42933 42932 8 2 42952 42951 2 2 42957 42956 8 2
   42998 42997 1 1 43859 42931 1 1 43888 5024 80 1 65345 65313 26 1 66600 66560 40 1 66776
   66736 36 1 66967 66928 11 1 66979 66940 15 1 66995 66956 7 1 67003 66964 2 1 68800 68736 51
   1 68976 68944 22 1 71872 71840 32 1 93792 93760 32 1 93883 93856 25 1 125218 125184 34 1"

-- Characters raised to two or three characters: the character and three code points, padded with
-- zeros.
def upperExpansions : Array Nat := numbers
  "223 83 83 0 329 700 78 0 496 74 780 0 912 921 776 769 944 933 776 769 1415 1333 1362 0 7830
   72 817 0 7831 84 776 0 7832 87 778 0 7833 89 778 0 7834 65 702 0 8016 933 787 0 8018 933
   787 768 8020 933 787 769 8022 933 787 834 8064 7944 921 0 8065 7945 921 0 8066 7946 921 0
   8067 7947 921 0 8068 7948 921 0 8069 7949 921 0 8070 7950 921 0 8071 7951 921 0 8072 7944
   921 0 8073 7945 921 0 8074 7946 921 0 8075 7947 921 0 8076 7948 921 0 8077 7949 921 0 8078
   7950 921 0 8079 7951 921 0 8080 7976 921 0 8081 7977 921 0 8082 7978 921 0 8083 7979 921 0
   8084 7980 921 0 8085 7981 921 0 8086 7982 921 0 8087 7983 921 0 8088 7976 921 0 8089 7977
   921 0 8090 7978 921 0 8091 7979 921 0 8092 7980 921 0 8093 7981 921 0 8094 7982 921 0 8095
   7983 921 0 8096 8040 921 0 8097 8041 921 0 8098 8042 921 0 8099 8043 921 0 8100 8044 921 0
   8101 8045 921 0 8102 8046 921 0 8103 8047 921 0 8104 8040 921 0 8105 8041 921 0 8106 8042
   921 0 8107 8043 921 0 8108 8044 921 0 8109 8045 921 0 8110 8046 921 0 8111 8047 921 0 8114
   8122 921 0 8115 913 921 0 8116 902 921 0 8118 913 834 0 8119 913 834 921 8124 913 921 0
   8130 8138 921 0 8131 919 921 0 8132 905 921 0 8134 919 834 0 8135 919 834 921 8140 919 921
   0 8146 921 776 768 8147 921 776 769 8150 921 834 0 8151 921 776 834 8162 933 776 768 8163
   933 776 769 8164 929 787 0 8166 933 834 0 8167 933 776 834 8178 8186 921 0 8179 937 921 0
   8180 911 921 0 8182 937 834 0 8183 937 834 921 8188 937 921 0 64256 70 70 0 64257 70 73 0
   64258 70 76 0 64259 70 70 73 64260 70 70 76 64261 83 84 0 64262 83 84 0 64275 1348 1350 0
   64276 1348 1333 0 64277 1348 1339 0 64278 1358 1350 0 64279 1348 1341 0"

def upperExpansion? (n : Nat) : Option (List Nat) :=
  go (upperExpansions.size / 4) 0
where
  go : Nat → Nat → Option (List Nat)
    | 0, _ => none
    | k + 1, i =>
      if upperExpansions.getD i 0 = n then
        some (((upperExpansions.extract (i + 1) (i + 4)).toList).filter (· ≠ 0))
      else go k (i + 4)

-- The characters of a cased script: letters in lower, upper or title case and their kin.
def cased : CodeSet := CodeSet.ofRuns
  "65 26 6 26 47 1 10 1 4 1 5 23 1 31 1 195 1 4 4 208 2 35 7 2 30 5 96 1 42 4 2 2 2 4 1 1 6 1
   1 3 1 1 1 20 1 83 1 139 8 166 1 38 9 41 2839 38 1 1 5 1 2 43 1 4 672 86 2 6 2178 11 5 43 2
   3 64 192 64 278 2 6 2 38 2 6 2 8 1 1 1 1 1 1 1 31 2 53 1 7 1 1 3 3 1 7 3 4 2 6 4 13 5 3 1 7
   116 1 13 1 16 13 101 1 4 1 2 10 1 1 3 5 6 1 1 1 1 1 1 4 1 6 4 1 2 4 5 5 4 1 17 32 3 2 817
   52 1814 229 6 4 3 2 12 38 1 1 5 1 30994 46 18 30 132 102 3 4 1 77 20 6 1 3 821 43 1 14 6 80
   20288 7 12 5 1033 26 6 26 1189 80 96 36 4 36 116 11 1 15 1 7 1 2 1 11 1 15 1 7 1 2 451 1 2
   3 1 42 1 9 1221 51 13 51 93 22 10 22 2842 64 21856 64 32 25 2 25 25900 85 1 71 1 2 2 1 2 2
   2 4 1 12 1 1 1 7 1 65 1 4 2 8 1 7 1 28 1 4 1 5 1 1 3 7 1 340 2 25 1 25 1 31 1 25 1 31 1 25
   1 31 1 25 1 31 1 25 1 8 1844 10 1 20 6 6 261 62 2194 68 2028 26 6 26 6 26"

-- The characters passed over when looking for a neighbouring cased one.
def caseIgnorable : CodeSet := CodeSet.ofRuns
  "39 1 6 1 11 1 35 1 1 1 71 1 4 1 1 1 4 1 2 2 503 192 4 2 4 1 9 2 1 1 251 7 207 1 5 1 49 45 1
   1 1 2 1 2 1 1 44 1 11 6 10 11 1 1 35 1 10 21 16 1 101 8 1 10 1 4 33 1 1 1 30 27 91 11 58 11
   4 1 2 1 24 24 43 3 44 1 7 2 5 9 41 58 55 1 1 1 4 8 4 1 3 7 10 2 13 1 15 1 58 1 4 4 8 1 20 2
   26 1 2 2 57 1 4 2 4 2 2 3 3 1 30 2 3 1 11 2 57 1 4 5 1 2 4 1 20 2 22 6 1 1 58 1 2 1 1 4 8 1
   7 2 11 2 30 1 61 1 12 1 50 1 3 1 55 1 1 3 5 3 1 4 7 2 11 2 29 1 58 1 2 1 6 1 5 2 20 2 28 2
   57 2 4 4 8 1 20 2 29 1 72 1 7 3 1 1 90 1 2 7 11 9 98 1 2 9 9 1 1 7 73 2 27 1 1 1 1 1 55 14
   1 5 1 2 5 11 1 36 9 1 102 4 1 6 1 2 2 2 25 2 4 3 16 4 13 1 2 2 6 1 15 1 94 1 608 3 946 3 29
   2 30 2 30 2 64 2 1 7 8 1 2 11 3 1 5 1 45 5 51 1 65 2 34 1 118 3 4 2 9 1 6 3 219 2 2 1 58 1
   1 7 1 1 1 1 2 8 6 10 2 1 39 1 8 46 2 12 20 4 48 1 1 5 1 1 5 1 40 9 12 2 32 4 2 2 1 3 56 1 1
   2 3 1 1 3 58 8 2 2 64 6 82 3 1 13 1 7 4 1 6 1 3 2 50 63 13 1 34 101 445 1 1 3 11 3 13 3 13
   3 13 2 12 5 8 2 10 1 2 1 2 5 49 5 1 10 1 1 13 1 16 13 51 33 2955 2 113 3 125 1 15 1 96 32
   47 1 469 1 36 4 3 5 5 1 93 6 93 3 28438 1 1250 6 270 1 98 4 1 10 1 1 28 4 80 2 14 34 78 1
   23 3 102 4 3 2 8 1 3 1 4 1 25 2 5 1 151 2 26 18 13 1 38 8 25 11 46 3 48 1 2 4 2 2 17 1 21 2
   66 6 2 2 2 2 12 1 8 1 35 1 11 1 51 1 1 3 2 2 5 2 1 1 27 1 14 2 5 2 1 1 100 5 9 3 121 1 2 1
   4 1 20272 1 147 17 573 16 3 1 12 16 34 1 2 1 169 1 7 1 6 1 11 1 35 1 1 1 47 1 45 2 67 1 21
   3 513 1 226 1 149 5 1029 6 1 42 1 9 582 3 1 2 5 4 40 3 4 1 165 2 573 4 38 1 26 5 1 1 315 2
   24 1 52 6 70 11 49 4 123 1 54 15 41 1 2 2 10 3 49 4 2 2 2 1 4 1 10 1 50 3 36 5 1 8 62 1 12
   2 52 9 10 4 2 1 95 3 2 1 1 2 6 1 2 1 157 1 3 8 21 2 57 2 3 1 37 7 3 5 70 6 13 1 1 1 1 1 14
   2 85 8 2 3 1 1 23 1 84 6 1 1 4 2 1 2 238 4 6 2 1 2 27 2 85 8 2 1 1 2 106 1 1 1 2 6 1 1 101
   1 1 1 2 4 1 5 259 9 1 2 256 2 1 1 4 1 144 4 2 2 4 1 32 10 40 6 2 4 8 1 9 6 2 3 46 13 1 2
   198 1 1 3 1 1 201 7 1 6 1 1 82 22 2 7 1 2 1 2 122 6 3 1 1 2 1 7 1 1 72 2 3 1 1 1 65 1 281 2
   11 2 52 5 5 1 1 1 23 1 5333 17 6 15 11464 12 3 3 2496 5 59 7 9 4 508 3 40 2 482 1 63 17 64
   2 1 2 13 2 16380 4 1 7 1 2 3230 2 1 4 4700 46 2 23 544 3 9 16 2 7 30 4 148 3 1979 55 4 50 8
   1 14 1 22 5 1 15 1360 7 1 17 2 7 1 2 1 5 5 62 33 1 160 14 368 1 61 4 507 5 254 2 243 1 2 1
   7 2 5 1 9 1 464 7 109 8 2735 5 789505 1 30 96 128 240"

def raise (c : Char) : List Char :=
  if c.toNat < 128 then [c.toUpper] else
  match upperExpansion? c.toNat with
  | some codes => codes.map Char.ofNat
  | none => [((shifted? upperShifts c.toNat).map Char.ofNat).getD c]

def lower (c : Char) : List Char :=
  if c.toNat < 128 then [c.toLower]
  else if c = 'İ' then ['i', '\u0307']
  else [((shifted? lowerShifts c.toNat).map Char.ofNat).getD c]

-- Whether the first character that is not passed over is cased.
def leadsCased (cs : List Char) : Bool :=
  match cs.dropWhile caseIgnorable.contains with
  | c :: _ => cased.contains c
  | [] => false

-- Lowers a text whose already passed characters are `before`, nearest first.
def lowerAfter : List Char → List Char → List Char
  | _, [] => []
  | before, c :: rest =>
    (if c = 'Σ' then [if leadsCased before && !leadsCased rest then 'ς' else 'σ'] else lower c)
      ++ lowerAfter (c :: before) rest

def toLower (s : String) : String := String.ofList (lowerAfter [] s.toList)

def toUpper (s : String) : String := String.ofList (s.toList.flatMap raise)

-- Sends each character that has relatives differing in case to one of them.
def foldShifts : List Shift := Shift.ofText
  "65 97 26 1 181 956 1 1 192 224 23 1 216 248 7 1 256 257 24 2 306 307 3 2 313 314 8 2 330
   331 23 2 376 255 1 1 377 378 3 2 383 115 1 1 385 595 1 1 386 387 2 2 390 596 1 1 391 392 1
   1 393 598 2 1 395 396 1 1 398 477 1 1 399 601 1 1 400 603 1 1 401 402 1 1 403 608 1 1 404
   611 1 1 406 617 1 1 407 616 1 1 408 409 1 1 412 623 1 1 413 626 1 1 415 629 1 1 416 417 3 2
   422 640 1 1 423 424 1 1 425 643 1 1 428 429 1 1 430 648 1 1 431 432 1 1 433 650 2 1 435 436
   2 2 439 658 1 1 440 441 1 1 444 445 1 1 452 454 1 1 453 454 1 1 455 457 1 1 456 457 1 1 458
   460 1 1 459 460 9 2 478 479 9 2 497 499 1 1 498 499 2 2 502 405 1 1 503 447 1 1 504 505 20
   2 544 414 1 1 546 547 9 2 570 11365 1 1 571 572 1 1 573 410 1 1 574 11366 1 1 577 578 1 1
   579 384 1 1 580 649 1 1 581 652 1 1 582 583 5 2 837 953 1 1 880 881 2 2 886 887 1 1 895
   1011 1 1 902 940 1 1 904 941 3 1 908 972 1 1 910 973 2 1 913 945 17 1 931 963 9 1 962 963 1
   1 975 983 1 1 976 946 1 1 977 952 1 1 981 966 1 1 982 960 1 1 984 985 12 2 1008 954 1 1
   1009 961 1 1 1012 952 1 1 1013 949 1 1 1015 1016 1 1 1017 1010 1 1 1018 1019 1 1 1021 891 3
   1 1024 1104 16 1 1040 1072 32 1 1120 1121 17 2 1162 1163 27 2 1216 1231 1 1 1217 1218 7 2
   1232 1233 48 2 1329 1377 38 1 4256 11520 38 1 4295 11559 1 1 4301 11565 1 1 5024 43888 80 1
   5104 5112 6 1 7296 1074 1 1 7297 1076 1 1 7298 1086 1 1 7299 1089 2 1 7301 1090 1 1 7302
   1098 1 1 7303 1123 1 1 7304 42571 1 1 7305 7306 1 1 7312 4304 43 1 7357 4349 3 1 7680 7681
   75 2 7835 7777 1 1 7838 223 1 1 7840 7841 48 2 7944 7936 8 1 7960 7952 6 1 7976 7968 8 1
   7992 7984 8 1 8008 8000 6 1 8025 8017 4 2 8040 8032 8 1 8072 8064 8 1 8088 8080 8 1 8104
   8096 8 1 8120 8112 2 1 8122 8048 2 1 8124 8115 1 1 8126 953 1 1 8136 8050 4 1 8140 8131 1 1
   8147 912 1 1 8152 8144 2 1 8154 8054 2 1 8163 944 1 1 8168 8160 2 1 8170 8058 2 1 8172 8165
   1 1 8184 8056 2 1 8186 8060 2 1 8188 8179 1 1 8486 969 1 1 8490 107 1 1 8491 229 1 1 8498
   8526 1 1 8544 8560 16 1 8579 8580 1 1 9398 9424 26 1 11264 11312 48 1 11360 11361 1 1 11362
   619 1 1 11363 7549 1 1 11364 637 1 1 11367 11368 3 2 11373 593 1 1 11374 625 1 1 11375 592
   1 1 11376 594 1 1 11378 11379 1 1 11381 11382 1 1 11390 575 2 1 11392 11393 50 2 11499
   11500 2 2 11506 11507 1 1 42560 42561 23 2 42624 42625 14 2 42786 42787 7 2 42802 42803 31
   2 42873 42874 2 2 42877 7545 1 1 42878 42879 5 2 42891 42892 1 1 42893 613 1 1 42896 42897
   2 2 42902 42903 10 2 42922 614 1 1 42923 604 1 1 42924 609 1 1 42925 620 1 1 42926 618 1 1
   42928 670 1 1 42929 647 1 1 42930 669 1 1 42931 43859 1 1 42932 42933 8 2 42948 42900 1 1
   42949 642 1 1 42950 7566 1 1 42951 42952 2 2 42955 612 1 1 42956 42957 8 2 42972 411 1 1
   42997 42998 1 1 64262 64261 1 1 65313 65345 26 1 66560 66600 40 1 66736 66776 36 1 66928
   66967 11 1 66940 66979 15 1 66956 66995 7 1 66964 67003 2 1 68736 68800 51 1 68944 68976 22
   1 71840 71872 32 1 93760 93792 32 1 93856 93883 25 1 125184 125218 34 1"

-- The common representative of the characters that differ from `c` in case alone.
def foldKey (n : Nat) : Nat := (shifted? foldShifts n).getD n

-- All characters that differ from `c` in case alone, `c` included.
def caseRelatives (c : Char) : List Char :=
  let key := foldKey c.toNat
  Char.ofNat key :: (foldShifts.filterMap (·.source? key)).map Char.ofNat

end PatternAction.Text
