import PolicyExpr.Text.Runs

/-!
# Ages

The version of Unicode in which each code point was assigned, up to version 16. A letter stands
for a version, in the order of the versions, and `z` for none.
-/
namespace PolicyExpr.Text

/-- The ages of all code points, from the first on. -/
def ageRuns : Runs := Runs.ofLines [
  "502A4D30A8D1F1G18D3G11H14I89A5D2G47A1D10A5D17G70A9D1F8G5H3G2A1D13F4J2A2J2z1A3I1A1P4z7A1z1A1z",
  "20A1z44A1J7A1D2F1A1D1A1D1A1D1A1D18A2E1F5G4H1D12A1D66A1D12A1D41A1J2D2F4D53A2F2A2F2A2F1I28A2D8A",
  "2H2A6I16F4I16J2K2L8P1z38A2z7A1T39A1T1A1D2z2P1M1z17B1H13B10A1I9A1B3H8z27A4z1T5A11z4G1M1P5J1H1A",
  "9G5J1A1O1X1H1A1L26A5J19A3D3G6H1L14A2F72A2D5A1D15A1D30A2G10A5D1G14D1z30D3G27D2z3G30H18J49D1F",
  "14z59I2z3T46K2z15K1z28L2z1L1z11S5z31X1z2X5z1a8X1M1P11M6P2Q1X8R10W11X1T15R1Q27M1P1K3A1G53A2L",
  "18A1K1L5A1K2L25A2J5L1P2K2I1H2I1P3A1z8A2z2A2z22A1z7A1z1A3z4A2z1A1G7A2z2A2z3A1H8z1A4z2A1z5A2z",
  "21A1K2S1T2z1G1A1G1z6A4z2A2z22A1z7A1z2A1z2A1z2A2z1A1z5A4z2A2z3A3z1J7z4A1z1A7z15A1J1T10z3A1z7A",
  "1G1A1z3A1z22A1z7A1z2A1z5A2z10A1z3A1z3A2z1A15z1A3G2z10A1M1G7z1Q6S1z3A1z8A2z2A2z22A1z7A1z2A1z1G",
  "4A2z8A1J2z2A2z3A7z1W2A4z2A1z3A2J2z11A1G6L10z2A1z6A3z3A1z4A3z2A1z1A1z2A3z2A3z3A3z8A1H3A4z5A3z",
  "3A1z4A2z1J6z1A14z1H12A8G5z1P3A1T8A1z3A1z23A1z10A1P5A2z1X1J7A1z3A1z4A7z2A1z2J1Q2z1X2z2A2J2z10A",
  "7z1U8J1R1P2A1T8A1z3A1z23A1z10A1z5A2z2G7A1z3A1z4A7z2A6z1X1A1z2A2I2z10A1z2I1Y12z1S1P2A1W8A1z3A",
  "1z23A1L16A1L2S1J6A1J1z3A1z4A1L1R4z3R1A7R1Q2A2J2z10A6J3R7J1z1W2D1z18D3z24D1z9D1z1D2z7D3z1D4z6D",
  "1z1D1z8D6z10P2z3D12z58A4z29A37z2A1z1A1z1U2A1U1A1z1U1A6U4A1U7A1U3A1z1A1z1A2U2A1U13A1U3A2z5A1z",
  "1A1z6A1Y1z10A2z2A2M32z72B1z33B1D2J4z27B4L6B1D1B1z21B3D7B1D1B3D1z15D1z1J1D2H3J4K2L37z34D1J5D1J",
  "2D1J7D3J4D6J26D64J4K2J38A1z1M5z1M2z39A2F2H1A1H3M90A5K68A5K82A6K7D1H63D1H1D1z4D2z7D1z1D1z4D2z",
  "39D1H1D1z4D2z31D1H1D1z4D2z7D1z1D1z4D2z7D1H7D1z23D1H31D1H1D1z4D2z7D1H39D1H19D2z2L2H28D3z26H6z",
  "85D1Q2z6Q2z1K630D9K29D3z81D8P7z13F1X7F1X9z1X23F9z20F12z13F1z3F1z2F12z93D1G2z10D6z10G6z15D1X",
  "10D6z88D1T7z42D1J5z70K10z29G2P1z12G4z12G4z1G3z42G2z5G11z42H2K4z26H6z10H1K3z2H32G28H2z2H63K1z",
  "29K2z11K6z10K6z14K2z15P2W14X49z76I1X1z2a45I2X1a43J3M12J6M52L8z4L56J3z15J3z51J9R2a5z43T2z3T8M",
  "8z35K4M1S2P1U5z108G88H7I28J15P4S1X1R1L1K2I155A1B4J90A6J22A2z6A2z38A2z6A2z8A1z1A1z1A1z1A1z31A",
  "2z53A1z15A1z14A2z6A1z19A2z3A1z9A1z47A1D23A1F6D5F2G2H1F7H5F1J1z4O7A1F2z27A1z5H8L3z11A1B1C3D2F",
  "4H3K1L1N3P1Q1S1X15z18A2D7F1H4I1J15z57A2D1G1H15F1H2I1J3K48A1D1I4J1K2Q4z91A9D12F242A14F1A1D121A",
  "1D1F30D52F2G11H12I1K11L7P4R1S37A2D3a22z11A21z139A20F1G150A10F80A8D8F20A2G2F1H1D86A2D12F2H10F",
  "8G11H1J2K2G16H1I10J3K4J10K1L19K1L1K4L24K1P4A1L4A2L28A1L35A1L1A1L4A3L1A1K7A2L7A14F31A3L24A1L",
  "14A1L7H4I1M1J1M2L28F4J16F256D512F14G6H7I5J4I41J3P5J5K26P2z32P1z1W34P3T12P1U8P1S25T4Q15T1U47H",
  "1X47H1X13I3J1K3J4I6J2K107H7K2M5z45H1z1M5z1M2z54H2M7z1H1L14z1L23H9z7H1z7H1z7H1z7H1z7H1z7H1z7H",
  "1z7H1z32J24H4J2H19J1K10M7P2R5S5T1U3W11X34z26D1z89D12z214D26z12D4Z56A3D3F1D1A1z84A2F2z6A2F94A",
  "1F5z40A1J1S1T1z94A1z16A24D3L5W16H20J2a9z1Z16F29A2G1z36A12K1G15F28A2G1H50A15F12A4G47A1V119A4G",
  "99A2G31A1G6582D10W64G20902A22H8J8K1M9Q21S5T13W3X1165D3z18D2F16D1F12D1F3D1F1D9z48K300J20z32J2L",
  "18J8M28J6P1Q1M88K8z23H4I5J2I107J2L1Q2L2M12P10L1M3P1R1T2P6Q2T6U2X5U4W3a2z2X1z1X1z5X3a21z3X2W1P",
  "2M1L5J44H1W3z10K6z56I8z69J1R8z12J6z28K2Q2T84J11z1J29K3z78K1z11K4z2K31P1z55J9z14J2z10J2z4J28K",
  "4P67K24z5K23M10z6L2z6L2z6L9z7L1z7L1z48P4Q2P2U4W4z80Q46K2z10K6z11172B12z23K4z49K2052z6702A2M",
  "59F3K2z106H38z7A12z5A5z1D25A1z5A1z1A1z2A1z2A1z108A16L1X16z365A16X64A2z54A7z1X32E12A1F1G2X16F",
  "10H6z4A3J7P2Q21A2F2G10A1z19A1z4A4z3A1F1A1z135A2z1A1z94A2F94A3z6A2z6A2z6A2z3A3z7A1z7A10z3D1C3A",
  "12G1z26G1z19G1z2G1z15G2z14G34z123G5z3G4z45G3z9G75H2P2R1z12J1W3z1P47z46J130z29J3z49J15z28P4z",
  "31E1P4E9z3S27E5z43P5z30G1z1G36H4z14H42z38E2G38E80G2z10G6z36R4z36R4z40P8z52P11z1P11X1z15X1z7X",
  "1z2X1z11X1z15X1z7X1z2X3z52a12z311P9z22P10z8P24z6X1z42X1z9X69z6G2z1G1z44G1z2G3z1G2z1G22K1z9K",
  "63P8z9P48z19Q1z2Q5z5Q26I2K3z1I26J5z1J64z56M4z2Q2M16Q2z46Q4H1z2H5z8H1z3H1z27H2T2z3H4z9H1T7z9H",
  "7z32K32P32z39P4z12P9z54K3z29K2z27K5z8K18P7z4P12z7P80z73K55z51Q13z51Q7z6Q40T8z10T6z38a3z29a8z",
  "2a208z31K1z42W1z3W2z2W16z3a55z1a3Y40T8z42T22z26X38z28W20z23U9z78L4z30L6X9z1P66K1X10z1T2z25M7z",
  "10M6z53M1z14M3T1W8z39P9z73M4Q1P2W10M1P5Q1z20P11z18P1z43P1R3Y62z7Q1z1Q1z4Q1z15Q1z11Q6z59P5z10P",
  "6z1Q3P1z8P2z2P2z22P1z7P1z2P1z5P1z1T9P2z2P2z3P2z1Q6z1P5z7P2z7P3z5P11z10a1z1a2z1a1z38a1z10a1z1a",
  "2z1a1z4a1z10a1z2a8z2a29z90R1W1R1z1R1T1U2W30z72P8z10P166z54P2z18P20Q34z69P11z10P6z13R19z56M1U",
  "1X6z10M6z20a28z26Q1T2z15Q4z16Q7X185z60T100z83P12z1P7W2z1W2z8W1z2W1z30W1z2W2z12W9z10W70z8U2z",
  "46U2z11U27z72S8z52S2U23S1T5S13z16X57P7z10Y182z34a14z10a6z9R1z45R1z14R10z29R3z32R2z22R1z14R73z",
  "7S1z2S1z44S3z1S1z2S1z9S8z10S6z6T1z2T1z37T1z2T1z6T7z10T310z25T7z17Y1z41Y3z28Y1a85z1W15z50U13z",
  "1U879I42P1Q102z99I12P1z4I1P11z196Q2636z99X13z1071K1Y9U29Y10z3995a5z583Q6841z58a1734z569L7z31P",
  "1z10P4z2P79X1z10X6z30P2z6P10z70P10z10P1z7P1z21P5z19P432z58a198z91T101z69M6U4z1U47M9U7z17M64z",
  "1R1S2U1W11z2W14z6125R5T6U8z755R483W41z1a9W8935z4X1z7X1z2X1z2L285S4X15z1Y29z3U2z1Y14z4U8z396S",
  "2308z107P5z13P3z9P7z10P2z8P3932z250a6z436a76z46X2z23X9z116X60z246E10z39E2z1J180E11Q2X21z70H",
  "122z20Y12z20T12z87G9z18I7T135z85E1z71E1z2E2z1E2z2E2z4E1z12E1z1E1z4E1G2E1z65E1z4E2z8E1z7E1z28E",
  "1z4E1z5E1z1E3z7E1z338E2H2z290E2I2z50E652Q15z5Q1z15Q1104z31X6z6Y213z7R1z17R2z7R1z2R1z5R5z62Y",
  "33z1Y112z45U3z14U2z10U4z2U320z31X17z58U5z1U464z42Y214z43a4z1a480z7X1z4X1z2X1z15X1z197P2z16P",
  "41z75R1U4z10R4z2R785z68T76z61U194z4M1z27M1z2M1z1M2z1M1z10M1z4M1z1M1z1M6z1M4z1M1z1M1z1M1z3M1z",
  "2M1z1M2z1M1z1M1z1M1z1M1z1M1z2M1z1M2z4M1z7M1z4M1z4M1z1M1z10M1z17M5z3M1z5M1z17M52z2M270z44J4z",
  "100J12z15L2z14L1P1z15L1z15L22P10z11K2P3W31K1T1L1K11L1K1L1K2L1K3L1K3L5K8L1K7L1K10L2M1U3W9L1K1L",
  "2K2L1K10L4K2L1K10L18R1W56z26L1K2L13z34K9L1R4z9K7z2L14z6S154z33L12P3Q6L1P70L1P2Q20L12P37L1P5L",
  "4P5Q12P17L7P8Q63L1P1L1P182L1P4L2P1Q62L2P4M7P5Q24L18P1R41P1R86P5L1M16L1M3L1M1L1M1L1M1L1M3L1M6L",
  "2M4L1M1L2M4L1M12L2P2Q11L48P70L10P1Q2R2S1U2W4z1Y3X13P3z4P3R2S1T1U2W3z116L3Y4z5Y85P4T1Y6z12U4z",
  "1X15z12P4z56P8z10P6z40P8z30P2z2W10a4z2a62z12S1W3U9Q6R1S8R8S1R2S12R1U12R1S3T15R13S5T1U1W4T2W1X",
  "1T1U4T5Q13R6S11T2W6U3W2U10T6U1Q2T8U1W1X3U23S25T84U12z14T2z4U1W3Y3U2X3z3U4W2Y1a5z1a6U19W4X3Y7W",
  "4X3Y1a1Y3W3X1a7z2Y7W3X2Y1a2z1a8X1Y1a6z7X2Y7z147W1z55W37a10W1028z2B42711E7W2X32z4149K4X1Y6z",
  "222L2z5762Q14z7473S15z622Z2466z542E1504z2B4939W5z4192Y56398z2B65534z2B65534z2B65534z2B65534z",
  "2B65534z2B65534z2B65534z2B65534z2B65534z2B65534z2B1z1E30z96E128z240G65038z131074B"]

/-- The names of the versions, in lower case and without signs, and their letters. -/
def ageNames : List (List String × String) :=
  [(["1.1", "v11"], "A"), (["2.0", "v20"], "B"), (["2.1", "v21"], "C"), (["3.0", "v30"], "D"),
    (["3.1", "v31"], "E"), (["3.2", "v32"], "F"), (["4.0", "v40"], "G"), (["4.1", "v41"], "H"),
    (["5.0", "v50"], "I"), (["5.1", "v51"], "J"), (["5.2", "v52"], "K"), (["6.0", "v60"], "L"),
    (["6.1", "v61"], "M"), (["6.2", "v62"], "N"), (["6.3", "v63"], "O"), (["7.0", "v70"], "P"),
    (["8.0", "v80"], "Q"), (["9.0", "v90"], "R"), (["10.0", "v100"], "S"),
    (["11.0", "v110"], "T"), (["12.0", "v120"], "U"), (["12.1", "v121"], "V"),
    (["13.0", "v130"], "W"), (["14.0", "v140"], "X"), (["15.0", "v150"], "Y"),
    (["15.1", "v151"], "Z"), (["16.0", "v160"], "a")]

/-- The code points that were assigned in a version or before it. -/
def ageRanges? (name : String) : Option CodeRanges :=
  (ageNames.find? (·.1.contains name)).map fun entry => ageRuns.rangesWhere (· ≤ entry.2)

end PolicyExpr.Text
