import DualTurret.Text.Basic

/-!
# A demonstration program

A short program for both turrets with a balance cutting section, which a new
window shows.
-/

namespace DualTurret

def sampleLines : List String := [
  "O0001 (MAZAK-INTEGREX-SAMPLE)",
  "(PART NAME: Balance Cutting Demonstration)",
  "(MATERIAL: 4140 Steel)",
  "(PROGRAMMER: Engineer)",
  "(DATE: 2024-12-30)",
  "",
  "N0001 G28 U0 W0;",
  "N0002 G40 G80 G97 G98;",
  "N0003 G50 S3500;",
  "N0004 G21;",
  "",
  "(========================================)",
  "(TOOL 1 - ROUGH OD UPPER TURRET        )",
  "(========================================)",
  "N1000 G109 L1;",
  "N1001 T0101 M06 D001;",
  "N1002 M901;",
  "N1003 G97 S1200 M03;",
  "N1004 G00 X65. Z5. M08;",
  "N1010 G01 X50. Z-50. F0.3;",
  "N1011 G00 X65. Z5.;",
  "N1012 M09 M05;",
  "",
  "(========================================)",
  "(BALANCE CUTTING OPERATION              )",
  "(========================================)",
  "N2000 G109 L1;",
  "N2001 M901;",
  "N2002 G00 X80. Z5.;",
  "N2003 P10;",
  "N2004 M03 S800;",
  "N2005 T0202 M06 D002;",
  "N2006 X55. Z2. M08;",
  "N2007 M950;",
  "N2008 M562;",
  "N2009 G01 X50. F0.25;",
  "N2010 G00 X80. Z5.;",
  "N2011 M563;",
  "N2012 P20;",
  "N2013 M09 M05;",
  "",
  "N3000 G109 L2;",
  "N3001 M901;",
  "N3002 G00 X80. Z5.;",
  "N3003 P10;",
  "N3004 M950;",
  "N3005 M03 S800;",
  "N3006 T0301;",
  "N3007 X45. Z2. M08;",
  "N3008 P20;",
  "N3009 G01 X40. F0.25;",
  "N3010 G00 X80. Z5.;",
  "",
  "N9998 M09;",
  "N9999 M05;",
  "N10000 G28 U0 W0;",
  "N10001 M30;"]

def sampleProgram : Text :=
  ['\n'].intercalate (sampleLines.map String.toList)

end DualTurret
