/-!
# The general category of every code point, as data

The code points from zero to the last are cut into maximal runs of one general
category. A run is written as its length, left out when it is one, followed by
the two letters of the category.
-/

set_option autoImplicit false

namespace MetricScope.Unicode

def categoryRuns : List String := [
  "32Cc Zs 3Po Sc 3Po Ps Pe Po Sm Po Pd 2Po 10Nd 2Po 3Sm 2Po 26Lu Ps Po Pe Sk Pc Sk 26Ll Ps Sm",
  "Pe Sm 33Cc Zs Po 4Sc So Po Sk So Lo Pi Sm Cf So Sk So Sm 2No Sk Ll 2Po Sk No Lo Pf 3No Po",
  "23Lu Sm 7Lu 24Ll Sm 8Ll Lu Ll Lu Ll Lu Ll Lu Ll Lu Ll Lu Ll Lu Ll Lu Ll Lu Ll Lu Ll Lu Ll Lu",
  "Ll Lu Ll Lu Ll Lu Ll Lu Ll Lu Ll Lu Ll Lu Ll Lu Ll Lu Ll Lu Ll Lu Ll Lu Ll Lu Ll Lu Ll Lu Ll",
  "Lu 2Ll Lu Ll Lu Ll Lu Ll Lu Ll Lu Ll Lu Ll Lu Ll Lu 2Ll Lu Ll Lu Ll Lu Ll Lu Ll Lu Ll Lu Ll",
  "Lu Ll Lu Ll Lu Ll Lu Ll Lu Ll Lu Ll Lu Ll Lu Ll Lu Ll Lu Ll Lu Ll Lu Ll Lu Ll Lu Ll Lu Ll Lu",
  "Ll Lu Ll 2Lu Ll Lu Ll Lu 3Ll 2Lu Ll Lu Ll 2Lu Ll 3Lu 2Ll 4Lu Ll 2Lu Ll 3Lu 3Ll 2Lu Ll 2Lu Ll",
  "Lu Ll Lu Ll 2Lu Ll Lu 2Ll Lu Ll 2Lu Ll 3Lu Ll Lu Ll 2Lu 2Ll Lo Lu 3Ll 4Lo Lu Lt Ll Lu Lt Ll",
  "Lu Lt Ll Lu Ll Lu Ll Lu Ll Lu Ll Lu Ll Lu Ll Lu Ll Lu 2Ll Lu Ll Lu Ll Lu Ll Lu Ll Lu Ll Lu",
  "Ll Lu Ll Lu Ll Lu 2Ll Lu Lt Ll Lu Ll 3Lu Ll Lu Ll Lu Ll Lu Ll Lu Ll Lu Ll Lu Ll Lu Ll Lu Ll",
  "Lu Ll Lu Ll Lu Ll Lu Ll Lu Ll Lu Ll Lu Ll Lu Ll Lu Ll Lu Ll Lu Ll Lu Ll Lu Ll Lu Ll Lu Ll Lu",
  "Ll Lu Ll Lu Ll Lu Ll Lu Ll Lu 7Ll 2Lu Ll 2Lu 2Ll Lu Ll 4Lu Ll Lu Ll Lu Ll Lu Ll Lu 69Ll Lo",
  "27Ll 18Lm 4Sk 12Lm 14Sk 5Lm 7Sk Lm Sk Lm 17Sk 112Mn Lu Ll Lu Ll Lm Sk Lu Ll 2Cn Lm 3Ll Po Lu",
  "4Cn 2Sk Lu Po 3Lu Cn Lu Cn 2Lu Ll 17Lu Cn 9Lu 35Ll Lu 2Ll 3Lu 3Ll Lu Ll Lu Ll Lu Ll Lu Ll Lu",
  "Ll Lu Ll Lu Ll Lu Ll Lu Ll Lu Ll Lu Ll Lu 5Ll Lu Ll Sm Lu Ll 2Lu 2Ll 51Lu 48Ll Lu Ll Lu Ll",
  "Lu Ll Lu Ll Lu Ll Lu Ll Lu Ll Lu Ll Lu Ll Lu Ll Lu Ll Lu Ll Lu Ll Lu Ll Lu Ll Lu Ll Lu Ll So",
  "5Mn 2Me Lu Ll Lu Ll Lu Ll Lu Ll Lu Ll Lu Ll Lu Ll Lu Ll Lu Ll Lu Ll Lu Ll Lu Ll Lu Ll Lu Ll",
  "Lu Ll Lu Ll Lu Ll Lu Ll Lu Ll Lu Ll Lu Ll Lu Ll Lu Ll Lu Ll Lu Ll Lu Ll Lu Ll 2Lu Ll Lu Ll",
  "Lu Ll Lu Ll Lu Ll Lu Ll Lu 2Ll Lu Ll Lu Ll Lu Ll Lu Ll Lu Ll Lu Ll Lu Ll Lu Ll Lu Ll Lu Ll",
  "Lu Ll Lu Ll Lu Ll Lu Ll Lu Ll Lu Ll Lu Ll Lu Ll Lu Ll Lu Ll Lu Ll Lu Ll Lu Ll Lu Ll Lu Ll Lu",
  "Ll Lu Ll Lu Ll Lu Ll Lu Ll Lu Ll Lu Ll Lu Ll Lu Ll Lu Ll Lu Ll Lu Ll Lu Ll Lu Ll Lu Ll Lu Ll",
  "Lu Ll Lu Ll Lu Ll Lu Ll Lu Ll Lu Ll Lu Ll Cn 38Lu 2Cn Lm 6Po 41Ll Po Pd 2Cn 2So Sc Cn 45Mn",
  "Pd Mn Po 2Mn Po 2Mn Po Mn 8Cn 27Lo 4Cn 4Lo 2Po 11Cn 6Cf 3Sm 2Po Sc 2Po 2So 11Mn Po Cf 3Po",
  "32Lo Lm 10Lo 21Mn 10Nd 4Po 2Lo Mn 99Lo Po Lo 7Mn Cf So 6Mn 2Lm 2Mn So 4Mn 2Lo 10Nd 3Lo 2So",
  "Lo 14Po Cn Cf Lo Mn 30Lo 27Mn 2Cn 89Lo 11Mn Lo 14Cn 10Nd 33Lo 9Mn 2Lm So 3Po Lm 2Cn Mn 2Sc",
  "22Lo 4Mn Lm 9Mn Lm 3Mn Lm 5Mn 2Cn 15Po Cn 25Lo 3Mn 2Cn Po Cn 11Lo 5Cn 24Lo Sk 6Lo Cn 2Cf 6Cn",
  "8Mn 41Lo Lm 24Mn Cf 32Mn Mc 54Lo Mn Mc Mn Lo 3Mc 8Mn 4Mc Mn 2Mc Lo 7Mn 10Lo 2Mn 2Po 10Nd Po",
  "Lm 15Lo Mn 2Mc Cn 8Lo 2Cn 2Lo 2Cn 22Lo Cn 7Lo Cn Lo 3Cn 4Lo 2Cn Mn Lo 3Mc 4Mn 2Cn 2Mc 2Cn",
  "2Mc Mn Lo 8Cn Mc 4Cn 2Lo Cn 3Lo 2Mn 2Cn 10Nd 2Lo 2Sc 6No So Sc Lo Po Mn 2Cn 2Mn Mc Cn 6Lo",
  "4Cn 2Lo 2Cn 22Lo Cn 7Lo Cn 2Lo Cn 2Lo Cn 2Lo 2Cn Mn Cn 3Mc 2Mn 4Cn 2Mn 2Cn 3Mn 3Cn Mn 7Cn",
  "4Lo Cn Lo 7Cn 10Nd 2Mn 3Lo Mn Po 10Cn 2Mn Mc Cn 9Lo Cn 3Lo Cn 22Lo Cn 7Lo Cn 2Lo Cn 5Lo 2Cn",
  "Mn Lo 3Mc 5Mn Cn 2Mn Mc Cn 2Mc Mn 2Cn Lo 15Cn 2Lo 2Mn 2Cn 10Nd Po Sc 7Cn Lo 6Mn Cn Mn 2Mc Cn",
  "8Lo 2Cn 2Lo 2Cn 22Lo Cn 7Lo Cn 2Lo Cn 5Lo 2Cn Mn Lo Mc Mn Mc 4Mn 2Cn 2Mc 2Cn 2Mc Mn 7Cn 2Mn",
  "Mc 4Cn 2Lo Cn 3Lo 2Mn 2Cn 10Nd So Lo 6No 10Cn Mn Lo Cn 6Lo 3Cn 3Lo Cn 4Lo 3Cn 2Lo Cn Lo Cn",
  "2Lo 3Cn 2Lo 3Cn 3Lo 3Cn 12Lo 4Cn 2Mc Mn 2Mc 3Cn 3Mc Cn 3Mc Mn 2Cn Lo 6Cn Mc 14Cn 10Nd 3No",
  "6So Sc So 5Cn Mn 3Mc Mn 8Lo Cn 3Lo Cn 23Lo Cn 16Lo 2Cn Mn Lo 3Mn 4Mc Cn 3Mn Cn 4Mn 7Cn 2Mn",
  "Cn 3Lo 2Cn Lo 2Cn 2Lo 2Mn 2Cn 10Nd 7Cn Po 7No So Lo Mn 2Mc Po 8Lo Cn 3Lo Cn 23Lo Cn 10Lo Cn",
  "5Lo 2Cn Mn Lo Mc Mn 5Mc Cn Mn 2Mc Cn 2Mc 2Mn 7Cn 2Mc 6Cn 2Lo Cn 2Lo 2Mn 2Cn 10Nd Cn 2Lo Mc",
  "12Cn 2Mn 2Mc 9Lo Cn 3Lo Cn 41Lo 2Mn Lo 3Mc 4Mn Cn 3Mc Cn 3Mc Mn Lo So 4Cn 3Lo Mc 7No 3Lo 2Mn",
  "2Cn 10Nd 9No So 6Lo Cn Mn 2Mc Cn 18Lo 3Cn 24Lo Cn 9Lo Cn Lo 2Cn 7Lo 3Cn Mn 4Cn 3Mc 3Mn Cn Mn",
  "Cn 8Mc 6Cn 10Nd 2Cn 2Mc Po 12Cn 48Lo Mn 2Lo 7Mn 4Cn Sc 6Lo Lm 8Mn Po 10Nd 2Po 37Cn 2Lo Cn Lo",
  "Cn 5Lo Cn 24Lo Cn Lo Cn 10Lo Mn 2Lo 9Mn Lo 2Cn 5Lo Cn Lm Cn 7Mn Cn 10Nd 2Cn 4Lo 32Cn Lo 3So",
  "15Po So Po 3So 2Mn 6So 10Nd 10No So Mn So Mn So Mn Ps Pe Ps Pe 2Mc 8Lo Cn 36Lo 4Cn 14Mn Mc",
  "5Mn Po 2Mn 5Lo 11Mn Cn 36Mn Cn 8So Mn 6So Cn 2So 5Po 4So 2Po 37Cn 43Lo 2Mc 4Mn Mc 6Mn Mc 2Mn",
  "2Mc 2Mn Lo 10Nd 6Po 6Lo 2Mc 2Mn 4Lo 3Mn Lo 3Mc 2Lo 7Mc 3Lo 4Mn 13Lo Mn 2Mc 2Mn 6Mc Mn Lo Mc",
  "10Nd 3Mc Mn 2So 38Lu Cn Lu 5Cn Lu 2Cn 43Ll Po Lm 3Ll 329Lo Cn 4Lo 2Cn 7Lo Cn Lo Cn 4Lo 2Cn",
  "41Lo Cn 4Lo 2Cn 33Lo Cn 4Lo 2Cn 7Lo Cn Lo Cn 4Lo 2Cn 15Lo Cn 57Lo Cn 4Lo 2Cn 67Lo 2Cn 3Mn",
  "9Po 20No 3Cn 16Lo 10So 6Cn 86Lu 2Cn 6Ll 2Cn Pd 620Lo So Po 17Lo Zs 26Lo Ps Pe 3Cn 75Lo 3Po",
  "3Nl 8Lo 7Cn 18Lo 3Mn Mc 9Cn 19Lo 2Mn Mc 2Po 9Cn 18Lo 2Mn 12Cn 13Lo Cn 3Lo Cn 2Mn 12Cn 52Lo",
  "2Mn Mc 7Mn 8Mc Mn 2Mc 11Mn 3Po Lm 3Po Sc Lo Mn 2Cn 10Nd 6Cn 10No 6Cn 6Po Pd 4Po 3Mn Cf Mn",
  "10Nd 6Cn 35Lo Lm 53Lo 7Cn 5Lo 2Mn 34Lo Mn Lo 5Cn 70Lo 10Cn 31Lo Cn 3Mn 4Mc 2Mn 3Mc 4Cn 2Mc",
  "Mn 6Mc 3Mn 4Cn So 3Cn 2Po 10Nd 30Lo 2Cn 5Lo 11Cn 44Lo 4Cn 26Lo 6Cn 10Nd No 3Cn 34So 23Lo 2Mn",
  "2Mc Mn 2Cn 2Po 53Lo Mc Mn Mc 7Mn Cn Mn Mc Mn 2Mc 8Mn 6Mc 10Mn 2Cn Mn 10Nd 6Cn 10Nd 6Cn 7Po",
  "Lm 6Po 2Cn 14Mn Me 16Mn 49Cn 4Mn Mc 47Lo Mn Mc 5Mn Mc Mn 5Mc Mn 2Mc 8Lo 3Cn 10Nd 7Po 10So",
  "9Mn 9So 2Po Cn 2Mn Mc 30Lo Mc 4Mn 2Mc 2Mn Mc 3Mn 2Lo 10Nd 44Lo Mn Mc 2Mn 3Mc Mn Mc 3Mn 2Mc",
  "8Cn 4Po 36Lo 8Mc 8Mn 2Mc 2Mn 3Cn 5Po 10Nd 3Cn 3Lo 10Nd 30Lo 6Lm 2Po 9Ll 7Cn 43Lu 2Cn 3Lu 8Po",
  "8Cn 3Mn Po 13Mn Mc 7Mn 4Lo Mn 6Lo Mn 2Lo Mc 2Mn Lo 5Cn 44Ll 63Lm 13Ll Lm 34Ll 37Lm 64Mn Lu",
  "Ll Lu Ll Lu Ll Lu Ll Lu Ll Lu Ll Lu Ll Lu Ll Lu Ll Lu Ll Lu Ll Lu Ll Lu Ll Lu Ll Lu Ll Lu Ll",
  "Lu Ll Lu Ll Lu Ll Lu Ll Lu Ll Lu Ll Lu Ll Lu Ll Lu Ll Lu Ll Lu Ll Lu Ll Lu Ll Lu Ll Lu Ll Lu",
  "Ll Lu Ll Lu Ll Lu Ll Lu Ll Lu Ll Lu Ll Lu Ll Lu Ll Lu Ll Lu Ll Lu Ll Lu Ll Lu Ll Lu Ll Lu Ll",
  "Lu Ll Lu Ll Lu Ll Lu Ll Lu Ll Lu Ll Lu Ll Lu Ll Lu Ll Lu Ll Lu Ll Lu Ll Lu Ll Lu Ll Lu Ll Lu",
  "Ll Lu Ll Lu Ll Lu Ll Lu Ll Lu Ll Lu Ll Lu Ll Lu Ll Lu Ll Lu Ll Lu Ll Lu 9Ll Lu Ll Lu Ll Lu",
  "Ll Lu Ll Lu Ll Lu Ll Lu Ll Lu Ll Lu Ll Lu Ll Lu Ll Lu Ll Lu Ll Lu Ll Lu Ll Lu Ll Lu Ll Lu Ll",
  "Lu Ll Lu Ll Lu Ll Lu Ll Lu Ll Lu Ll Lu Ll Lu Ll Lu Ll Lu Ll Lu Ll Lu Ll Lu Ll Lu Ll Lu Ll Lu",
  "Ll Lu Ll Lu Ll Lu Ll Lu Ll Lu Ll Lu Ll Lu Ll Lu Ll Lu Ll Lu Ll Lu Ll Lu Ll Lu Ll Lu Ll Lu",
  "9Ll 8Lu 6Ll 2Cn 6Lu 2Cn 8Ll 8Lu 8Ll 8Lu 6Ll 2Cn 6Lu 2Cn 8Ll Cn Lu Cn Lu Cn Lu Cn Lu 8Ll 8Lu",
  "14Ll 2Cn 8Ll 8Lt 8Ll 8Lt 8Ll 8Lt 5Ll Cn 2Ll 4Lu Lt Sk Ll 3Sk 3Ll Cn 2Ll 4Lu Lt 3Sk 4Ll 2Cn",
  "2Ll 4Lu Cn 3Sk 8Ll 5Lu 3Sk 2Cn 3Ll Cn 2Ll 4Lu Lt 2Sk Cn 11Zs 5Cf 6Pd 2Po Pi Pf Ps 2Pi Pf Ps",
  "Pi 8Po Zl Zp 5Cf Zs 9Po Pi Pf 4Po 2Pc 3Po Sm Ps Pe 11Po Sm Po Pc 10Po Zs 5Cf Cn 10Cf No Lm",
  "2Cn 6No 3Sm Ps Pe Lm 10No 3Sm Ps Pe Cn 13Lm 3Cn 33Sc 15Cn 13Mn 4Me Mn 3Me 12Mn 15Cn 2So Lu",
  "4So Lu 2So Ll 3Lu 2Ll 3Lu Ll So Lu 2So Sm 5Lu 6So Lu So Lu So Lu So 4Lu So Ll 4Lu Ll 4Lo Ll",
  "2So 2Ll 2Lu 5Sm Lu 4Ll So Sm 2So Ll So 16No 35Nl Lu Ll 4Nl No 2So 4Cn 5Sm 5So 2Sm 4So Sm 2So",
  "Sm 2So Sm 7So Sm 31So 2Sm 2So Sm So Sm 31So 268Sm 8So Ps Pe Ps Pe 20So 2Sm 7So Ps Pe 81So Sm",
  "30So 25Sm 40So 6Sm 69So 25Cn 11So 21Cn 60No 78So 22No 183So Sm 9So Sm 54So 8Sm 111So Sm",
  "248So Ps Pe Ps Pe Ps Pe Ps Pe Ps Pe Ps Pe Ps Pe 30No 44So 5Sm Ps Pe 31Sm Ps Pe Ps Pe Ps Pe",
  "Ps Pe Ps Pe 16Sm 256So 131Sm Ps Pe Ps Pe Ps Pe Ps Pe Ps Pe Ps Pe Ps Pe Ps Pe Ps Pe Ps Pe Ps",
  "Pe 63Sm Ps Pe Ps Pe 32Sm Ps Pe 258Sm 48So 21Sm 2So 6Sm 39So 2Cn 32So Cn 105So 48Lu 48Ll Lu",
  "Ll 3Lu 2Ll Lu Ll Lu Ll Lu Ll 4Lu Ll Lu 2Ll Lu 6Ll 2Lm 3Lu Ll Lu Ll Lu Ll Lu Ll Lu Ll Lu Ll",
  "Lu Ll Lu Ll Lu Ll Lu Ll Lu Ll Lu Ll Lu Ll Lu Ll Lu Ll Lu Ll Lu Ll Lu Ll Lu Ll Lu Ll Lu Ll Lu",
  "Ll Lu Ll Lu Ll Lu Ll Lu Ll Lu Ll Lu Ll Lu Ll Lu Ll Lu Ll Lu Ll Lu Ll Lu Ll Lu Ll Lu Ll Lu Ll",
  "Lu Ll Lu Ll Lu Ll Lu Ll Lu Ll Lu Ll Lu Ll Lu Ll Lu Ll Lu Ll Lu Ll Lu Ll Lu 2Ll 6So Lu Ll Lu",
  "Ll 3Mn Lu Ll 5Cn 4Po No 2Po 38Ll Cn Ll 5Cn Ll 2Cn 56Lo 7Cn Lm Po 14Cn Mn 23Lo 9Cn 7Lo Cn 7Lo",
  "Cn 7Lo Cn 7Lo Cn 7Lo Cn 7Lo Cn 7Lo Cn 7Lo Cn 32Mn 2Po Pi Pf Pi Pf 3Po Pi Pf Po Pi Pf 9Po Pd",
  "2Po Pd Po Pi Pf 2Po Pi Pf Ps Pe Ps Pe Ps Pe Ps Pe 5Po Lm 10Po 2Pd 4Po Pd Po Ps 13Po 2So 3Po",
  "Ps Pe Ps Pe Ps Pe Ps Pe Pd 34Cn 26So Cn 89So 12Cn 214So 26Cn 12So 4Cn Zs 3Po So Lm Lo Nl Ps",
  "Pe Ps Pe Ps Pe Ps Pe Ps Pe 2So Ps Pe Ps Pe Ps Pe Ps Pe Pd Ps 2Pe So 9Nl 4Mn 2Mc Pd 5Lm 2So",
  "3Nl Lm Lo Po 2So Cn 86Lo 2Cn 2Mn 2Sk 2Lm Lo Pd 90Lo Po 3Lm Lo 5Cn 43Lo Cn 94Lo Cn 2So 4No",
  "10So 32Lo 36So 12Cn 16Lo 31So Cn 10No 30So 8No So 15No 32So 10No 39So 15No 320So 6592Lo 64So",
  "21013Lo Lm 1143Lo 3Cn 55So 9Cn 40Lo 6Lm 2Po 268Lo Lm 3Po 16Lo 10Nd 2Lo 20Cn Lu Ll Lu Ll Lu",
  "Ll Lu Ll Lu Ll Lu Ll Lu Ll Lu Ll Lu Ll Lu Ll Lu Ll Lu Ll Lu Ll Lu Ll Lu Ll Lu Ll Lu Ll Lu Ll",
  "Lu Ll Lu Ll Lu Ll Lu Ll Lu Ll Lo Mn 3Me Po 10Mn Po Lm Lu Ll Lu Ll Lu Ll Lu Ll Lu Ll Lu Ll Lu",
  "Ll Lu Ll Lu Ll Lu Ll Lu Ll Lu Ll Lu Ll Lu Ll 2Lm 2Mn 70Lo 10Nl 2Mn 6Po 8Cn 23Sk 9Lm 2Sk Lu",
  "Ll Lu Ll Lu Ll Lu Ll Lu Ll Lu Ll Lu 3Ll Lu Ll Lu Ll Lu Ll Lu Ll Lu Ll Lu Ll Lu Ll Lu Ll Lu",
  "Ll Lu Ll Lu Ll Lu Ll Lu Ll Lu Ll Lu Ll Lu Ll Lu Ll Lu Ll Lu Ll Lu Ll Lu Ll Lu Ll Lu Ll Lu Ll",
  "Lu Ll Lu Ll Lu Ll Lu Ll Lu Ll Lu Ll Lu Ll Lm 8Ll Lu Ll Lu Ll 2Lu Ll Lu Ll Lu Ll Lu Ll Lu Ll",
  "Lm 2Sk Lu Ll Lu Ll Lo Lu Ll Lu 3Ll Lu Ll Lu Ll Lu Ll Lu Ll Lu Ll Lu Ll Lu Ll Lu Ll Lu Ll Lu",
  "Ll 5Lu Ll 5Lu Ll Lu Ll Lu Ll Lu Ll Lu Ll Lu Ll Lu Ll Lu Ll 4Lu Ll Lu Ll 5Cn Lu Ll Cn Ll Cn",
  "Ll Lu Ll Lu Ll 24Cn 3Lm Lu Ll Lo 2Lm Ll 7Lo Mn 3Lo Mn 4Lo Mn 23Lo 2Mc 2Mn Mc 4So Mn 3Cn 6No",
  "2So Sc So 6Cn 52Lo 4Po 8Cn 2Mc 50Lo 16Mc 2Mn 8Cn 2Po 10Nd 6Cn 18Mn 6Lo 3Po Lo Po 2Lo Mn 10Nd",
  "28Lo 8Mn 2Po 23Lo 11Mn 2Mc 11Cn Po 29Lo 3Cn 3Mn Mc 47Lo Mn 2Mc 4Mn 2Mc 2Mn 3Mc 13Po Cn Lm",
  "10Nd 4Cn 2Po 5Lo Mn Lm 9Lo 10Nd 5Lo Cn 41Lo 6Mn 2Mc 2Mn 2Mc 2Mn 9Cn 3Lo Mn 8Lo Mn Mc 2Cn",
  "10Nd 2Cn 4Po 16Lo Lm 6Lo 3So Lo Mc Mn Mc 50Lo Mn Lo 3Mn 2Lo 2Mn 5Lo 2Mn Lo Mn Lo 24Cn 2Lo Lm",
  "2Po 11Lo Mc 2Mn 2Mc 2Po Lo 2Lm Mc Mn 10Cn 6Lo 2Cn 6Lo 2Cn 6Lo 9Cn 7Lo Cn 7Lo Cn 43Ll Sk 4Lm",
  "9Ll Lm 2Sk 4Cn 80Ll 35Lo 2Mc Mn 2Mc Mn 2Mc Po Mc Mn 2Cn 10Nd 6Cn 11172Lo 12Cn 23Lo 4Cn 49Lo",
  "4Cn 2048Cs 6400Co 366Lo 2Cn 106Lo 38Cn 7Ll 12Cn 5Ll 5Cn Lo Mn 10Lo Sm 13Lo Cn 5Lo Cn Lo Cn",
  "2Lo Cn 2Lo Cn 108Lo 17Sk 16Cn 363Lo Pe Ps 16So 64Lo 2Cn 54Lo 7Cn So 32Cn 12Lo Sc 3So 16Mn",
  "7Po Ps Pe Po 6Cn 16Mn Po 2Pd 2Pc Ps Pe Ps Pe Ps Pe Ps Pe Ps Pe Ps Pe Ps Pe Ps Pe 2Po Ps Pe",
  "4Po 3Pc 3Po Cn 4Po Pd Ps Pe Ps Pe Ps Pe 3Po Sm Pd 3Sm Cn Po Sc 2Po 4Cn 5Lo Cn 135Lo 2Cn Cf",
  "Cn 3Po Sc 3Po Ps Pe Po Sm Po Pd 2Po 10Nd 2Po 3Sm 2Po 26Lu Ps Po Pe Sk Pc Sk 26Ll Ps Sm Pe Sm",
  "Ps Pe Po Ps Pe 2Po 10Lo Lm 45Lo 2Lm 31Lo 3Cn 6Lo 2Cn 6Lo 2Cn 6Lo 2Cn 3Lo 3Cn 2Sc Sm Sk So",
  "2Sc Cn So 4Sm 2So 10Cn 3Cf 2So 2Cn 12Lo Cn 26Lo Cn 19Lo Cn 2Lo Cn 15Lo 2Cn 14Lo 34Cn 123Lo",
  "5Cn 3Po 4Cn 45No 3Cn 9So 53Nl 4No 17So 2No 3So Cn 13So 3Cn So 47Cn 45So Mn 130Cn 29Lo 3Cn",
  "49Lo 15Cn Mn 27No 4Cn 32Lo 4No 9Cn 20Lo Nl 8Lo Nl 5Cn 38Lo 5Mn 5Cn 30Lo Cn Po 36Lo 4Cn 8Lo",
  "Po 5Nl 42Cn 40Lu 40Ll 78Lo 2Cn 10Nd 6Cn 36Lu 4Cn 36Ll 4Cn 40Lo 8Cn 52Lo 11Cn Po 11Lu Cn 15Lu",
  "Cn 7Lu Cn 2Lu Cn 11Ll Cn 15Ll Cn 7Ll Cn 2Ll 67Cn 311Lo 9Cn 22Lo 10Cn 8Lo 24Cn 6Lm Cn 42Lm Cn",
  "9Lm 69Cn 6Lo 2Cn Lo Cn 44Lo Cn 2Lo 3Cn Lo 2Cn 23Lo Cn Po 8No 23Lo 2So 7No 31Lo 8Cn 9No 48Cn",
  "19Lo Cn 2Lo 5Cn 5No 22Lo 6No 3Cn Po 26Lo 5Cn Po 64Cn 56Lo 4Cn 2No 2Lo 16No 2Cn 46No Lo 3Mn",
  "Cn 2Mn 5Cn 4Mn 4Lo Cn 3Lo Cn 29Lo 2Cn 3Mn 4Cn Mn 9No 7Cn 9Po 7Cn 29Lo 2No Po 29Lo 3No 32Cn",
  "8Lo So 28Lo 2Mn 4Cn 5No 7Po 9Cn 54Lo 3Cn 7Po 22Lo 2Cn 8No 19Lo 5Cn 8No 18Lo 7Cn 4Po 12Cn 7No",
  "80Cn 73Lo 55Cn 51Lu 13Cn 51Ll 7Cn 6No 36Lo 4Mn 8Cn 10Nd 294Cn 31No Cn 42Lo Cn 2Mn Pd 2Cn 2Lo",
  "75Cn 3Mn 29Lo 10No Lo 8Cn 22Lo 11Mn 4No 5Po 22Cn 18Lo 4Mn 4Po 38Cn 21Lo 7No 20Cn 23Lo 9Cn Mc",
  "Mn Mc 53Lo 15Mn 7Po 4Cn 20No 10Nd Mn 2Lo 2Mn Lo 9Cn 3Mn Mc 45Lo 3Mc 4Mn 2Mc 2Mn 2Po Cf 4Po",
  "Mn 10Cn Cf 2Cn 25Lo 7Cn 10Nd 6Cn 3Mn 36Lo 5Mn Mc 8Mn Cn 10Nd 4Po Lo 2Mc Lo 8Cn 35Lo Mn 2Po",
  "Lo 9Cn 2Mn Mc 48Lo 3Mc 9Mn 2Mc 4Lo 4Po 4Mn Po Mc Mn 10Nd Lo Po Lo 3Po Cn 20No 11Cn 18Lo Cn",
  "25Lo 3Mc 3Mn 2Mc Mn Mc 2Mn 6Po Mn 2Lo Mn 62Cn 7Lo Cn Lo Cn 4Lo Cn 15Lo Cn 10Lo Po 6Cn 47Lo",
  "Mn 3Mc 8Mn 5Cn 10Nd 6Cn 2Mn 2Mc Cn 8Lo 2Cn 2Lo 2Cn 22Lo Cn 7Lo Cn 2Lo Cn 5Lo Cn 2Mn Lo 2Mc",
  "Mn 4Mc 2Cn 2Mc 2Cn 3Mc 2Cn Lo 6Cn Mc 5Cn 5Lo 2Mc 2Cn 7Mn 3Cn 5Mn 139Cn 53Lo 3Mc 8Mn 2Mc 3Mn",
  "Mc Mn 4Lo 5Po 10Nd 2Po Cn Po Mn 3Lo 30Cn 48Lo 3Mc 6Mn Mc Mn 4Mc 2Mn Mc 2Mn 2Lo Po Lo 8Cn",
  "10Nd 166Cn 47Lo 3Mc 4Mn 2Cn 4Mc 2Mn Mc 2Mn 23Po 4Lo 2Mn 34Cn 48Lo 3Mc 8Mn 2Mc Mn Mc 2Mn 3Po",
  "Lo 11Cn 10Nd 6Cn 13Po 19Cn 43Lo Mn Mc Mn 2Mc 6Mn Mc Mn Lo Po 6Cn 10Nd 54Cn 27Lo 2Cn 3Mn 2Mc",
  "4Mn Mc 5Mn 4Cn 10Nd 2No 3Po So 7Lo 185Cn 44Lo 3Mc 9Mn Mc 2Mn Po 100Cn 32Lu 32Ll 10Nd 9No",
  "12Cn 8Lo 2Cn Lo 2Cn 8Lo Cn 2Lo Cn 24Lo 6Mc Cn 2Mc 2Cn 2Mn Mc Mn Lo Mc Lo Mc Mn 3Po 9Cn 10Nd",
  "70Cn 8Lo 2Cn 39Lo 3Mc 4Mn 2Cn 2Mn 4Mc Mn Lo Po Lo Mc 27Cn Lo 10Mn 40Lo 6Mn Mc Lo 4Mn 8Po Mn",
  "8Cn Lo 6Mn 2Mc 3Mn 46Lo 13Mn Mc 2Mn 3Po Lo 5Po 13Cn 73Lo 7Cn 10Po 246Cn 9Lo Cn 37Lo Mc 7Mn",
  "Cn 6Mn Mc Mn Lo 5Po 10Cn 10Nd 19No 3Cn 2Po 30Lo 2Cn 22Mn Cn Mc 7Mn Mc 2Mn Mc 2Mn 73Cn 7Lo Cn",
  "2Lo Cn 38Lo 6Mn 3Cn Mn Cn 2Mn Cn 7Mn Lo Mn 8Cn 10Nd 6Cn 6Lo Cn 2Lo Cn 32Lo 5Mc Cn 2Mn Cn 2Mc",
  "Mn Mc Mn Lo 7Cn 10Nd 310Cn 19Lo 2Mn 2Mc 2Po 7Cn 2Mn Lo Mc 13Lo Cn 34Lo 2Mc 5Mn 3Cn 2Mc Mn Mc",
  "Mn 13Po 10Nd 86Cn Lo 15Cn 21No 8So 4Sc 17So 13Cn Po 922Lo 102Cn 111Nl Cn 5Po 11Cn 196Lo",
  "2636Cn 97Lo 2Po 13Cn 1072Lo 16Cf Mn 6Lo 15Mn 4010Cn 583Lo 8633Cn 569Lo 7Cn 31Lo Cn 10Nd 4Cn",
  "2Po 79Lo Cn 10Nd 6Cn 30Lo 2Cn 5Mn Po 10Cn 48Lo 7Mn 5Po 4So 4Lm Po So 10Cn 10Nd Cn 7No Cn",
  "21Lo 5Cn 19Lo 688Cn 32Lu 32Ll 23No 4Po 101Cn 75Lo 4Cn Mn Lo 55Mc 7Cn 4Mn 13Lm 64Cn 2Lm Po Lm",
  "Mn 11Cn 2Mc 14Cn 6136Lo 8Cn 1238Lo 42Cn 9Lo 8935Cn 4Lm Cn 7Lm Cn 2Lm Cn 291Lo 15Cn Lo 29Cn",
  "3Lo 2Cn Lo 14Cn 4Lo 8Cn 396Lo 2308Cn 107Lo 5Cn 13Lo 3Cn 9Lo 7Cn 10Lo 2Cn So 2Mn Po 4Cf",
  "4700Cn 46Mn 2Cn 23Mn 9Cn 116So 60Cn 246So 10Cn 39So 2Cn 60So 2Mc 3Mn 3So 6Mc 8Cf 8Mn 2So 7Mn",
  "30So 4Mn 61So 21Cn 66So 3Mn So 122Cn 20No 12Cn 20No 12Cn 87So 9Cn 25No 135Cn 26Lu 26Ll 26Lu",
  "7Ll Cn 18Ll 26Lu 26Ll Lu Cn 2Lu 2Cn Lu 2Cn 2Lu 2Cn 4Lu Cn 8Lu 4Ll Cn Ll Cn 7Ll Cn 11Ll 26Lu",
  "26Ll 2Lu Cn 4Lu 2Cn 8Lu Cn 7Lu Cn 26Ll 2Lu Cn 4Lu Cn 5Lu Cn Lu 3Cn 7Lu Cn 26Ll 26Lu 26Ll",
  "26Lu 26Ll 26Lu 26Ll 26Lu 26Ll 26Lu 26Ll 26Lu 28Ll 2Cn 25Lu Sm 25Ll Sm 6Ll 25Lu Sm 25Ll Sm",
  "6Ll 25Lu Sm 25Ll Sm 6Ll 25Lu Sm 25Ll Sm 6Ll 25Lu Sm 25Ll Sm 6Ll Lu Ll 2Cn 50Nd 512So 55Mn",
  "4So 50Mn 8So Mn 14So Mn 2So 5Po 15Cn 5Mn Cn 15Mn 1104Cn 10Ll Lo 20Ll 6Cn 6Ll 213Cn 7Mn Cn",
  "17Mn 2Cn 7Mn Cn 2Mn Cn 5Mn 5Cn 62Lm 33Cn Mn 112Cn 45Lo 3Cn 7Mn 7Lm 2Cn 10Nd 4Cn Lo So 320Cn",
  "30Lo Mn 17Cn 44Lo 4Mn 10Nd 5Cn Sc 464Cn 27Lo Lm 4Mn 10Nd 742Cn 7Lo Cn 4Lo Cn 2Lo Cn 15Lo Cn",
  "197Lo 2Cn 9No 7Mn 41Cn 34Lu 34Ll 7Mn Lm 4Cn 10Nd 4Cn 2Po 785Cn 59No So 3No Sc 4No 76Cn 45No",
  "So 15No 194Cn 4Lo Cn 27Lo Cn 2Lo Cn Lo 2Cn Lo Cn 10Lo Cn 4Lo Cn Lo Cn Lo 6Cn Lo 4Cn Lo Cn Lo",
  "Cn Lo Cn 3Lo Cn 2Lo Cn Lo 2Cn Lo Cn Lo Cn Lo Cn Lo Cn Lo Cn 2Lo Cn Lo 2Cn 4Lo Cn 7Lo Cn 4Lo",
  "Cn 4Lo Cn Lo Cn 10Lo Cn 17Lo 5Cn 3Lo Cn 5Lo Cn 17Lo 52Cn 2Sm 270Cn 44So 4Cn 100So 12Cn 15So",
  "2Cn 15So Cn 15So Cn 37So 10Cn 13No 161So 56Cn 29So 13Cn 44So 4Cn 9So 7Cn 2So 14Cn 6So 154Cn",
  "251So 5Sk 728So 4Cn 17So 3Cn 13So 3Cn 119So 4Cn 95So 6Cn 12So 4Cn So 15Cn 12So 4Cn 56So 8Cn",
  "10So 6Cn 40So 8Cn 30So 2Cn 2So 78Cn 340So 12Cn 14So 2Cn 13So 3Cn 9So 7Cn 46So Cn 7So 8Cn",
  "14So 4Cn 9So 7Cn 9So 7Cn 147So Cn 55So 37Cn 10Nd 1030Cn 42720Lo 32Cn 4154Lo 6Cn 222Lo 2Cn",
  "5762Lo 14Cn 7473Lo 3103Cn 542Lo 1506Cn 4939Lo 5Cn 4192Lo 711761Cn Cf 30Cn 96Cf 128Cn 240Mn",
  "65040Cn 65534Co 2Cn 65534Co 2Cn"]

end MetricScope.Unicode
