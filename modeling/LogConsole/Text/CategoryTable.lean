/-!
# LogConsole.Text.CategoryTable

The Unicode character database in two run-length texts.

* `categoryRuns` — the general categories of all code points from 0 upwards; each run is a
  count (left out when it is one) and the letter of a category, `A` to `Z` and `a` to `d` in the
  order of `Category`;
* `foldRuns`     — the simple case foldings, as `start,count,stride,delta` with the delta added
  to each of `count` code points, `stride` apart.
-/

namespace LogConsole.Text

def categoryRuns : String :=
  String.join [
    "32ZW3RT3RNORSRM2R10I2R3S2R26ANROULU26BNSOS33ZWR4TVRUVEPSaVUVS2KUB2RUKEQ3KR23AS7A24BS8BAB",
    "ABABABABABABABABABABABABABABABABABABABABABABABABABABA2BABABABABABABABA2BABABABABABABABAB",
    "ABABABABABABABABABABABABABABAB2ABABA3B2ABAB2AB3A2B4AB2AB3A3B2AB2ABABAB2ABA2BAB2AB3ABAB2A",
    "2BEA3B4EACBACBACBABABABABABABABA2BABABABABABABABABA2BACBAB3ABABABABABABABABABABABABABABA",
    "BABABABABABABABABABABABABABABA7B2AB2A2BAB4ABABABABA69BE27B18D4U12D14U5D7UDUD17U112FABABD",
    "UAB2dD3BRA4d2UAR3AdAd2AB17Ad9A35BA2B3A3BABABABABABABABABABABABA5BABSAB2A2B51A48BABABABAB",
    "ABABABABABABABABABABABABABV5F2HABABABABABABABABABABABABABABABABABABABABABABABABABABAB2AB",
    "ABABABABABA2BABABABABABABABABABABABABABABABABABABABABABABABABABABABABABABABABABABABABABA",
    "BABABABABABABABABABABd38A2dD6R41BRM2d2VTd45FMFR2FR2FRF8d27E4d4E2R11d6a3S2RT2R2V11FRa3R32",
    "ED10E21F10I4R2EF99ERE7FaV6F2D2FV4F2E10I3E2VE14RdaEF30E27F2d89E11FE14d10I33E9F2DV3RD2dF2T",
    "22E4FD9FD3FD5F2d15Rd25E3F2dRd11E5d24EU6Ed2a5d9F41ED24Fa32FG54EFGFE3G8F4GF2GE7F10E2F2R10I",
    "RD15EF2Gd8E2d2E2d22Ed7EdE3d4E2dFE3G4F2d2G2d2GFE8dG4d2Ed3E2F2d10I2E2T6KVTERF2d2FGd6E4d2E2",
    "d22Ed7Ed2Ed2Ed2E2dFd3G2F4d2F2d3F3dF7d4EdE7d10I2F3EFR10d2FGd9Ed3Ed22Ed7Ed2Ed5E2dFE3G5Fd2F",
    "Gd2GF2dE15d2E2F2d10IRT7dE6FdF2Gd8E2d2E2d22Ed7Ed2Ed5E2dFEGFG4F2d2G2d2GF7d2FG4d2Ed3E2F2d10",
    "IVE6K10dFEd6E3d3Ed4E3d2EdEd2E3d2E3d3E3d12E4d2GF2G3d3Gd3GF2dE6dG14d10I3K6VTV5dF3GF8Ed3Ed2",
    "3Ed16E2dFE3F4Gd3Fd4F7d2Fd3E2dE2d2E2F2d10I7dR7KVEF2GR8Ed3Ed23Ed10Ed5E2dFEGF5GdF2Gd2G2F7d2",
    "G6d2Ed2E2F2d10Id2EG12d2F2G9Ed3Ed41E2FE3G4Fd3Gd3GFEV4d3EG7K3E2F2d10I9KV6EdF2Gd18E3d24Ed9E",
    "dE2d7E3dF4d3G3FdFd8G6d10I2d2GR12d48EF2E7F4dT6ED8FR10I2R37d2EdEd5Ed24EdEd10EF2E9FE2d5EdDd",
    "7Fd10I2d4E32dE3V15RVR3V2F6V10I10KVFVFVFNONO2G8Ed36E4d14FG5FR2F5E11Fd36Fd8VF6Vd2V5R4V2R37",
    "d43E2G4FG6FG2F2G2FE10I6R6E2G2F4E3FE3G2E7G3E4F13EF2G2F6GFEG10I3GF2V38AdA5dA2d43BRD3B329Ed",
    "4E2d7EdEd4E2d41Ed4E2d33Ed4E2d7EdEd4E2d15Ed57Ed4E2d67E2d3F9R20K3d16E10V6d86A2d6B2dM620EVR",
    "17EW26ENO3d75E3R3J8E7d18E3FG9d19E2FG2R9d18E2F12d13Ed3Ed2F12d52E2FG7F8GF2G11F3RD3RTEF2d10",
    "I6d10K6d6RM4R3FaF10I6d35ED53E7d5E2F34EFE5d70E10d31Ed3F4G2F3G4d2GF6G3F4dV3d2R10I30E2d5E11",
    "d44E4d26E6d10IK3d34V23E2F2GF2d2R53EGFG7FdFGF2G8F6G10F2dF10I6d10I6d7RD6R2d14FH16F49d4FG47",
    "EFG5FGF5GF2G8E3d10I7R10V9F9V2Rd2FG30EG4F2G2FG3F2E10I44EFG2F3GFG3F2G8d4R36E8G8F2G2F3d5R10",
    "I3d3E10I30E6D2R9BAB5d43A2d3A8R8d3FR13FG7F4EF6EF2EG2FE5d44B63D13BD34B37D64FABABABABABABAB",
    "ABABABABABABABABABABABABABABABABABABABABABABABABABABABABABABABABABABABABABABABABABABABAB",
    "ABABABABABABABABABABABABABABABABABABABABABABABA9BABABABABABABABABABABABABABABABABABABABA",
    "BABABABABABABABABABABABABABABABABABABABABABABABABABABABABA9B8A6B2d6A2d8B8A8B8A6B2d6A2d8B",
    "dAdAdAdA8B8A14B2d8B8C8B8C8B8C5Bd2B4ACUB3U3Bd2B4AC3U4B2d2B4Ad3U8B5A3U2d3Bd2B4AC2Ud11W5a6M",
    "2RPQN2PQNP8RXY5aW9RPQ4R2L3RSNO11RSRL10RW5ad10aKD2d6K3SNOD10K3SNOd13D3d33T15d13F4HF3H12F1",
    "5d2VA4VA2VB3A2B3ABVA2VS5A6VAVAVAV4AVB4AB4EB2V2B2A5SA4BVS2VBV16K35JAB4JK2V4d5S5V2S4VS2VS2",
    "VS7VS31V2S2VSVS31V268S8VNONO20V2S7VNO81VS30V25S40V6S69V25d11V21d60K78V22K183VS9VS54V8S11",
    "1VS248VNONONONONONONO30K44V5SNO31SNONONONONO16S256V131SNONONONONONONONONONONO63SNONO32SN",
    "O258S48V21S2V6S39V2d32Vd105V48A48BAB3A2BABABAB4ABA2BA6B2D3ABABABABABABABABABABABABABABAB",
    "ABABABABABABABABABABABABABABABABABABABABABABABABABABABABABABABABABABA2B6VABAB3FAB5d4RK2R",
    "38BdB5dB2d56E7dDR14dF23E9d7Ed7Ed7Ed7Ed7Ed7Ed7Ed7Ed32F2RPQPQ3RPQRPQ9RM2RMRPQ2RPQNONONONO5",
    "RD10R2M4RMRN13R2V3RNONONONOM34d26Vd89V12d214V26d12V4dW3RVDEJNONONONONO2VNONONONOMN2OV9J4",
    "F2GM5D2V3JDER2Vd86E2d2F2U2DEM90ER3DE5d43Ed94Ed2V4K10V32E36V12d16E31Vd10K30V8KV15K32V10K3",
    "9V15K320V6592E64V21013ED1143E3d55V9d40E6D2R268ED3R16E10I2E20dABABABABABABABABABABABABABA",
    "BABABABABABABABABABEF3HR10FRDABABABABABABABABABABABABABAB2D2F70E10J2F6R8d23U9D2UABABABAB",
    "ABABA3BABABABABABABABABABABABABABABABABABABABABABABABABABABABABABABABD8BABAB2ABABABABABD",
    "2UABABEABA3BABABABABABABABABABAB5AB5ABABABABABABABAB4ABAB2AB2dABdBdBABABABA21d3DABE2DB7E",
    "F3EF4EF23E2G2FG4VF3d6K2VTV6d52E4R8d2G50E16G2F8d2R10I6d18F6E3RER2EF10I28E8F2R23E11F2G11dR",
    "29E3d3FG47EF2G4F2G2F3G13RdD10I4d2R5EFD9E10I5Ed41E6F2G2F2G2F9d3EF8EFG2d10I2d4R16ED6E3VEGF",
    "G50EFE3F2E2F5E2FEFE24d2ED2R11EG2F2G2RE2DGF10d6E2d6E2d6E9d7Ed7Ed43BU4D9BD2U4d80B35E2GF2GF",
    "2GRGF2d10I6d11172E12d23E4d49E4d2048b6400c366E2d106E38d7B12d5B5dEF10ES13Ed5EdEd2Ed2Ed108E",
    "17U16d363EON16V64E2d54E7dV32d12ET3V16F7RNOR6d16FR2M2LNONONONONONONONO2RNO4R3L3Rd4RMNONON",
    "O3RSM3SdRT2R4d5Ed135E2dad3RT3RNORSRM2R10I2R3S2R26ANROULU26BNSOSNORNO2R10ED45E2D31E3d6E2d",
    "6E2d6E2d3E3d2TSUV2TdV4S2V10d3a2V2d12Ed26Ed19Ed2Ed15E2d14E34d123E5d3R4d45K3d9V53J4K17V2K3",
    "Vd13V3dV47d45VF130d29E3d49E15dF27K4d32E4K9d20EJ8EJ5d38E5F5d30EdR36E4d8ER5J42d40A40B78E2d",
    "10I6d36A4d36B4d40E8d52E11dR11Ad15Ad7Ad2Ad11Bd15Bd7Bd2B3d52E12d311E9d22E10d8E24d6Dd42Dd9D",
    "69d6E2dEd44Ed2E3dE2d23EdR8K23E2V7K31E8d9K48d19Ed2E5d5K22E6K3dR26E5dR64d56E4d2K2E16K2d46K",
    "E3Fd2F5d4F4Ed3Ed29E2d3F4dF9K7d9R7d29E2KR29E3K32d8EV28E2F4d5K7R9d54E3d7R22E2d8K19E5d8K18E",
    "7d4R12d7K80d73E55d51A13d51B7d6K36E4F8d10I6d10I278d31Kd42Ed2FM2d2E75d3F29E10KE8d22E11F4K5",
    "R22d18E4F4R38d21E7K20d23E9dGFG53E15F7R4d20K10IF2E2FE9d3FG45E3G4F2G2F2Ra4RF10da2d25E7d10I",
    "6d3F36E5FG8Fd10I4RE2GE8d35EF2RE9d2FG48E3G9F2G4E4R4FRGF10IERE3Rd20K11d18Ed25E3G3F2GFG2F6R",
    "F2dF62d7EdEd4Ed15Ed10ER6d47EF3G8F5d10I6d2F2Gd8E2d2E2d22Ed7Ed2Ed5Ed2FE2GF4G2d2G2d3G2dE6dG",
    "5d5E2G2d7F3d5F139d53E3G8F2G3FGF4E5R10I2RdRF3E30d48E3G6FGF4G2FG2F2ERE8d10I166d47E3G4F2d4G",
    "2FG2F23R4E2F34d48E3G8F2GFG2F3RE11d10I6d13R19d43EFGF2G6FGFER6d10I6d20I28d27E2d3F2G4FG5F4d",
    "10I2K3RV7E185d44E3G9FG2FR100d32A32B10I9K12d8E2dE2d8Ed2Ed24E6Gd2G2d2FGFEGEGF3R9d10I70d8E2",
    "d39E3G4F2d2F4GFEREG27dE10F40E6FGE4F8RF8dE6F2G3F46E13FG2F3RE5R13d73E247d10I6d9Ed37EG7Fd6F",
    "GFE5R10d10I19K3d2R30E2d22FdG7FG2FG2F73d7Ed2Ed38E6F3dFd2Fd7FEF8d10I6d6Ed2Ed32E5Gd2Fd2GFGF",
    "E7d10I310d19E2F2G2R11d13Ed34E28d10I86dE15d21K8V4T17V13dR922E102d111Jd5R11d196E2636d97E2R",
    "13d1071Ed9a4039d583E8633d569E7d31Ed10I4d2R79Ed10I6d30E2d5FR10d48E7F5R4V4DRV10d10Id7Kd21E",
    "5d19E432dD255d32A32B23K4R101d75E4dFE55G7d4F13D64d2DRDF11d2G14d6136E8d1238E42d9E8935d4Dd7",
    "Dd2Dd291E45d3E17d4E8d396E2308d107E5d13E3d9E7d10E2dV2FR4a4172d10I518d46F2d23F9d116V60d246",
    "V10d39V2d60V2G3F3V6G8a8F2V7F30V4F61V21d66V3FV154d20K12d87V9d25K135d26A26B26A7Bd18B26A26B",
    "Ad2A2dA2d2A2d4Ad8A4BdBd7Bd11B26A26B2Ad4A2d8Ad7Ad26B2Ad4Ad5AdA3d7Ad26B26A26B26A26B26A26B2",
    "6A26B26A26B26A28B2d25AS25BS6B25AS25BS6B25AS25BS6B25AS25BS6B25AS25BS6BAB2d50I512V55F4V50F",
    "8VF14VF2V5R15d5Fd15F1104d10BE20B6d6B213d7Fd17F2d7Fd2Fd5F5d62D33dF112d45E3d7F7D2d10I4dEV3",
    "20d30EF17d44E4F10I5dT464d27ED4F10I247d10I485d7Ed4Ed2Ed15Ed197E2d9K7F41d34A34B7FD4d10I4d2",
    "R785d59KV3KT4K76d45KV15K194d4Ed27Ed2EdE2dEd10Ed4EdEdE6dE4dEdEdEd3Ed2EdE2dEdEdEdEdEd2EdE2",
    "d4Ed7Ed4Ed4EdEd10Ed17E5d3Ed5Ed17E52d2S270d44V4d100V12d15V2d15Vd15Vd37V10d13K161V56d29V13",
    "d44V4d9V7d2V14d6V154d251V5U728V5d16V3d13V3d116V12d89V7d12V4dV15d12V4d56V8d10V6d40V8d30V2",
    "d2V78d340V12d14V2d5V3d5V3d7V9d29V3d11V5d6V10d10V6d8V8d7V9d147Vd55V37d10I1030d42720E32d41",
    "53E7d222E2d5762E14d7473E15d622E2466d542E1506d4939E5d4192E711761da30d96a128d240F65040d655",
    "34c2d65534c2d"]

def foldRuns : String :=
  String.join [
    "65,26,1,32;181,1,1,775;192,23,1,32;216,7,1,32;256,24,2,1;306,3,2,1;313,8,2,1;",
    "330,23,2,1;376,1,1,-121;377,3,2,1;383,1,1,-268;385,1,1,210;386,2,2,1;390,1,1,206;",
    "391,1,1,1;393,2,1,205;395,1,1,1;398,1,1,79;399,1,1,202;400,1,1,203;401,1,1,1;",
    "403,1,1,205;404,1,1,207;406,1,1,211;407,1,1,209;408,1,1,1;412,1,1,211;413,1,1,213;",
    "415,1,1,214;416,3,2,1;422,1,1,218;423,1,1,1;425,1,1,218;428,1,1,1;430,1,1,218;",
    "431,1,1,1;433,2,1,217;435,2,2,1;439,1,1,219;440,1,1,1;444,1,1,1;452,1,1,2;453,1,1,1;",
    "455,1,1,2;456,1,1,1;458,1,1,2;459,9,2,1;478,9,2,1;497,1,1,2;498,2,2,1;502,1,1,-97;",
    "503,1,1,-56;504,20,2,1;544,1,1,-130;546,9,2,1;570,1,1,10795;571,1,1,1;573,1,1,-163;",
    "574,1,1,10792;577,1,1,1;579,1,1,-195;580,1,1,69;581,1,1,71;582,5,2,1;837,1,1,116;",
    "880,2,2,1;886,1,1,1;895,1,1,116;902,1,1,38;904,3,1,37;908,1,1,64;910,2,1,63;",
    "913,17,1,32;931,9,1,32;962,1,1,1;975,1,1,8;976,1,1,-30;977,1,1,-25;981,1,1,-15;",
    "982,1,1,-22;984,12,2,1;1008,1,1,-54;1009,1,1,-48;1012,1,1,-60;1013,1,1,-64;1015,1,1,1;",
    "1017,1,1,-7;1018,1,1,1;1021,3,1,-130;1024,16,1,80;1040,32,1,32;1120,17,2,1;",
    "1162,27,2,1;1216,1,1,15;1217,7,2,1;1232,48,2,1;1329,38,1,48;4256,38,1,7264;",
    "4295,1,1,7264;4301,1,1,7264;5112,6,1,-8;7296,1,1,-6222;7297,1,1,-6221;7298,1,1,-6212;",
    "7299,2,1,-6210;7301,1,1,-6211;7302,1,1,-6204;7303,1,1,-6180;7304,1,1,35267;",
    "7312,43,1,-3008;7357,3,1,-3008;7680,75,2,1;7835,1,1,-58;7838,1,1,-7615;7840,48,2,1;",
    "7944,8,1,-8;7960,6,1,-8;7976,8,1,-8;7992,8,1,-8;8008,6,1,-8;8025,4,2,-8;8040,8,1,-8;",
    "8072,8,1,-8;8088,8,1,-8;8104,8,1,-8;8120,2,1,-8;8122,2,1,-74;8124,1,1,-9;",
    "8126,1,1,-7173;8136,4,1,-86;8140,1,1,-9;8152,2,1,-8;8154,2,1,-100;8168,2,1,-8;",
    "8170,2,1,-112;8172,1,1,-7;8184,2,1,-128;8186,2,1,-126;8188,1,1,-9;8486,1,1,-7517;",
    "8490,1,1,-8383;8491,1,1,-8262;8498,1,1,28;8544,16,1,16;8579,1,1,1;9398,26,1,26;",
    "11264,48,1,48;11360,1,1,1;11362,1,1,-10743;11363,1,1,-3814;11364,1,1,-10727;",
    "11367,3,2,1;11373,1,1,-10780;11374,1,1,-10749;11375,1,1,-10783;11376,1,1,-10782;",
    "11378,1,1,1;11381,1,1,1;11390,2,1,-10815;11392,50,2,1;11499,2,2,1;11506,1,1,1;",
    "42560,23,2,1;42624,14,2,1;42786,7,2,1;42802,31,2,1;42873,2,2,1;42877,1,1,-35332;",
    "42878,5,2,1;42891,1,1,1;42893,1,1,-42280;42896,2,2,1;42902,10,2,1;42922,1,1,-42308;",
    "42923,1,1,-42319;42924,1,1,-42315;42925,1,1,-42305;42926,1,1,-42308;42928,1,1,-42258;",
    "42929,1,1,-42282;42930,1,1,-42261;42931,1,1,928;42932,8,2,1;42948,1,1,-48;",
    "42949,1,1,-42307;42950,1,1,-35384;42951,2,2,1;42960,1,1,1;42966,2,2,1;42997,1,1,1;",
    "43888,80,1,-38864;65313,26,1,32;66560,40,1,40;66736,36,1,40;66928,11,1,39;",
    "66940,15,1,39;66956,7,1,39;66964,2,1,39;68736,51,1,64;71840,32,1,32;93760,32,1,32;",
    "125184,34,1,34"]

end LogConsole.Text
