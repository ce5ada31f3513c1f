import SprdVendor.Lib.Bytes
import SprdVendor.Lib.Text

namespace SprdVendor.Download
open Lib

inductive Cali where
  | caliVersion
  | isCalibrated | rcCaliEn | dcocCaliEn | txiqCaliEn | rxiqCaliEn | txpowerCaliEn | dpdCaliEn
  | configReserved
  | rctuneValue | rctuneReserved
  | dcocCaliCode | dcocReserved
  | rfTxiqC11 | rfTxiqC12 | rfTxiqC22 | rfTxiqDc | txiqReserved
  | rfRxiqCoef2122 | rfRxiqCoef1112 | rxiqReserved
  | psatTemperature | psatGainindex | psatPower | psatBackoff | psatUpperLimit | psatLowerLimit
  | freqDeltaGainindex | gmChannel (i : Fin 14) | txpowerReserved
  | dpdCaliChannelNum | dpdCaliChannel | dpdCaliTable (i : Fin 3) | dpdReserved
  | rfCtune | rfReserved
  | tpcCfg | tpcReserved
deriving DecidableEq

structure Place where
  offset : Nat
  size : Nat
  count : Nat

/-- The layout of `wifi_cali_t`, with `int` aligned to four bytes and `short` to two. -/
def Cali.place : Cali → Place
  | .caliVersion => ⟨0, 1, 1⟩
  | .isCalibrated => ⟨1, 1, 1⟩
  | .rcCaliEn => ⟨2, 1, 1⟩
  | .dcocCaliEn => ⟨3, 1, 1⟩
  | .txiqCaliEn => ⟨4, 1, 1⟩
  | .rxiqCaliEn => ⟨5, 1, 1⟩
  | .txpowerCaliEn => ⟨6, 1, 1⟩
  | .dpdCaliEn => ⟨7, 1, 1⟩
  | .configReserved => ⟨8, 1, 4⟩
  | .rctuneValue => ⟨12, 1, 1⟩
  | .rctuneReserved => ⟨13, 1, 2⟩
  | .dcocCaliCode => ⟨16, 2, 18⟩
  | .dcocReserved => ⟨52, 4, 4⟩
  | .rfTxiqC11 => ⟨68, 4, 1⟩
  | .rfTxiqC12 => ⟨72, 4, 1⟩
  | .rfTxiqC22 => ⟨76, 4, 1⟩
  | .rfTxiqDc => ⟨80, 4, 1⟩
  | .txiqReserved => ⟨84, 4, 4⟩
  | .rfRxiqCoef2122 => ⟨100, 4, 1⟩
  | .rfRxiqCoef1112 => ⟨104, 4, 1⟩
  | .rxiqReserved => ⟨108, 4, 2⟩
  | .psatTemperature => ⟨116, 4, 1⟩
  | .psatGainindex => ⟨120, 1, 1⟩
  | .psatPower => ⟨122, 2, 1⟩
  | .psatBackoff => ⟨124, 1, 1⟩
  | .psatUpperLimit => ⟨125, 1, 1⟩
  | .psatLowerLimit => ⟨126, 1, 1⟩
  | .freqDeltaGainindex => ⟨127, 1, 14⟩
  | .gmChannel i => ⟨141 + 32 * i, 1, 32⟩
  | .txpowerReserved => ⟨592, 4, 4⟩
  | .dpdCaliChannelNum => ⟨608, 1, 1⟩
  | .dpdCaliChannel => ⟨609, 1, 3⟩
  | .dpdCaliTable i => ⟨612 + 728 * i, 4, 182⟩
  | .dpdReserved => ⟨2796, 4, 4⟩
  | .rfCtune => ⟨2812, 1, 14⟩
  | .rfReserved => ⟨2828, 4, 4⟩
  | .tpcCfg => ⟨2844, 4, 37⟩
  | .tpcReserved => ⟨2992, 4, 4⟩

def caliSize : Nat := 3008

def Cali.element (data : List UInt8) (m : Cali) (i : Nat) : Nat :=
  ofLe ((data.drop (m.place.offset + i * m.place.size)).take m.place.size)

def Cali.elements (data : List UInt8) (m : Cali) (num : Nat) : List Nat :=
  (List.range num).map (m.element data)

inductive Fmt where
  | dec
  | hex
deriving DecidableEq

def Fmt.print (fmt : Fmt) (size v : Nat) : List Char :=
  match fmt with
  | .dec =>
    if size = 4 ∧ 2 ^ 31 ≤ v then '-' :: Nat.toDigits 10 (2 ^ 32 - v) else Nat.toDigits 10 v
  | .hex => '0' :: 'x' :: Nat.toDigits 16 v

inductive Line where
  | text (s : String)
  | field (label : String) (m : Cali) (fmt : Fmt) (num : Nat)

def rule : String := "#-----------------------------------------------------------------"

def heading (n title : String) : List Line :=
  [.text ("[SETCTION " ++ n ++ "]"), .text rule, .text title, .text rule]

def caliLines : List Line :=
  List.flatten [
    heading "0" "# Marlin cali Version info",
    [.field "cali_version = " .caliVersion .dec 1, .text ""],
    heading "1" "# Calibration Config",
    [.field "is_calibrated   = " .isCalibrated .dec 1,
     .field "rc_cali_en      = " .rcCaliEn .dec 1,
     .field "dcoc_cali_en    = " .dcocCaliEn .dec 1,
     .field "txiq_cali_en    = " .txiqCaliEn .dec 1,
     .field "rxiq_cali_en    = " .rxiqCaliEn .dec 1,
     .field "txpower_cali_en = " .txpowerCaliEn .dec 1,
     .field "dpd_cali_en     = " .dpdCaliEn .dec 1,
     .field "config_reserved = " .configReserved .dec 4, .text ""],
    heading "2" "# rc calibration data",
    [.field "rctune_value    = " .rctuneValue .hex 1,
     -- three elements of an array of two: the third is the byte of padding behind it
     .field "rc_cali_reserved= " .rctuneReserved .hex 3, .text ""],
    heading "3" "# doco calibration data",
    [.field "dcoc_cali_code    = " .dcocCaliCode .hex 18,
     .field "dcoc_reserved   = " .dcocReserved .hex 4, .text ""],
    heading "4" "# txiq calibration data",
    [.field "rf_txiq_c11     = " .rfTxiqC11 .hex 1,
     .field "rf_txiq_c12     = " .rfTxiqC12 .hex 1,
     .field "rf_txiq_c22     = " .rfTxiqC22 .hex 1,
     .field "rf_txiq_dc      = " .rfTxiqDc .hex 1,
     .field "txiq_reserved   = " .txiqReserved .hex 4, .text ""],
    heading "5" "# rxiq calibration data",
    [.field "rf_rxiq_coef21_22   = " .rfRxiqCoef2122 .hex 1,
     .field "rf_rxiq_coef11_12   = " .rfRxiqCoef1112 .hex 1,
     .field "rxiq_reserved       = " .rxiqReserved .hex 2, .text ""],
    heading "6" "# txpower calibration data",
    [.field "txpower_psat_temperature   = " .psatTemperature .dec 1,
     .field "txpower_psat_gainindex   = " .psatGainindex .dec 1,
     .field "txpower_psat_power   = " .psatPower .dec 1,
     .field "txpower_psat_backoff   = " .psatBackoff .dec 1,
     .field "txpower_psat_upper_limit   = " .psatUpperLimit .dec 1,
     .field "txpower_psat_lower_limit   = " .psatLowerLimit .dec 1,
     .field "txpower_freq_delta_gainindex = " .freqDeltaGainindex .dec 14],
    (List.finRange 14).map (fun i => .field
      ("txpower_temperature_delta_gm_channel" ++ toString (i.val + 1) ++ " = ") (.gmChannel i)
      .dec 32),
    [.field "txpower_reserved   = " .txpowerReserved .dec 4],
    heading "7" "# DPD calibration data",
    [.field "dpd_cali_channel_num   = " .dpdCaliChannelNum .dec 1,
     .field "dpd_cali_channel   = " .dpdCaliChannel .dec 3],
    (List.finRange 3).map (fun i => .field
      ("channel" ++ toString (i.val + 1) ++ "_dpd_cali_table = ") (.dpdCaliTable i) .hex 182),
    [.field "dpd_reserved   = " .dpdReserved .hex 4],
    heading "8" "# RF parameters data",
    [.field "rf_ctune = " .rfCtune .dec 14,
     .field "rf_reserved = " .rfReserved .dec 4, .text ""],
    heading "9" "# TPC Configuration data",
    [.field "tpc_cfg = " .tpcCfg .hex 37,
     .field "tpc_reserved = " .tpcReserved .hex 4, .text ""],
    List.replicate 30 (.text "")]

def commaSep : List (List Char) → List Char
  | [] => []
  | [v] => v
  | v :: vs => v ++ ',' :: ' ' :: commaSep vs

/-- A line of the file for a structure. In calibration mode `is_calibrated` is written as 0. -/
def Line.toText (calibrating : Bool) (data : List UInt8) : Line → List Char
  | .text s => s.toList
  | .field label m fmt num =>
    let vs := if calibrating ∧ m = .isCalibrated then [0] else m.elements data num
    label.toList ++ commaSep (vs.map (fmt.print m.place.size))

def caliText (calibrating : Bool) (data : List UInt8) : List Char :=
  caliLines.flatMap fun l => l.toText calibrating data ++ ['\n']

def caliMaxSize : Nat := 16 * 1024

/-- `wlan_save_cali_data_to_file`; a text that does not fit its buffer has no result. -/
def wlanSaveCaliDataToFile (calibrating : Bool) (data : List UInt8) : Option (List Char) :=
  if (caliText calibrating data).length + 1 ≤ caliMaxSize then some (caliText calibrating data)
  else none

/-- The result of `find_type`: 0, 1, 2, 3 or 4. -/
inductive CharType where
  | separator
  | letter
  | digit
  | other
  | stop
deriving DecidableEq

def findType (key : Char) : CharType :=
  if ('a' ≤ key ∧ key ≤ 'w') ∨ ('y' ≤ key ∧ key ≤ 'z') ∨ ('A' ≤ key ∧ key ≤ 'W') ∨
      ('Y' ≤ key ∧ key ≤ 'Z') ∨ key = '_' then .letter
  else if ('0' ≤ key ∧ key ≤ '9') ∨ key = '-' then .digit
  else if key = 'x' ∨ key = 'X' ∨ key = '.' then .other
  else if key = '\x00' ∨ key = '\r' ∨ key = '\n' ∨ key = '#' then .stop
  else .separator

/-- `nvm_cali_cmd`; `num` is the length of `par`. -/
structure Cmd where
  itm : List Char
  par : List Int
deriving DecidableEq

/-- The variable `bufType`: -1, 1 or 2. -/
inductive BufType where
  | empty
  | word
  | number
deriving DecidableEq

structure Scan where
  tmp : List Char
  bufType : BufType
  flag : Bool
  cmd : Cmd
deriving DecidableEq

namespace Scan

def start : Scan := ⟨[], .empty, false, ⟨[], []⟩⟩

def flush (s : Scan) : Option Scan :=
  if s.bufType = .empty then some s
  else if s.bufType = .word ∧ s.flag = false then
    if s.tmp.length < 64 then some ⟨[], .empty, true, ⟨s.tmp, s.cmd.par⟩⟩ else none
  else if s.cmd.par.length < 256 then
    some ⟨[], .empty, s.flag, ⟨s.cmd.itm, s.cmd.par ++ [strtol 32 0 s.tmp]⟩⟩
  else none

/-- A character of a token; `tmp` has room for 127 of them. -/
def push (ty : CharType) (c : Char) (s : Scan) : Option Scan :=
  let bufType :=
    match s.bufType with
    | .empty => if ty = .digit then .number else .word
    | .number => if ty = .letter then .word else .number
    | .word => .word
  if s.tmp.length < 127 then some ⟨s.tmp ++ [c], bufType, s.flag, s.cmd⟩ else none

def step (s : Scan) (c : Char) : Option Scan :=
  if findType c = .separator then s.flush else s.push (findType c) c

end Scan

def getCmdPar (line : List Char) : Option Cmd :=
  ((((line.takeWhile fun c => findType c ≠ .stop).foldlM Scan.step Scan.start).bind
    Scan.flush)).map Scan.cmd

structure Row where
  itm : String
  member : Cali
  type : Nat

def caliTable : List Row :=
  List.flatten [
    [⟨"cali_version", .caliVersion, 1⟩,
     ⟨"is_calibrated", .isCalibrated, 1⟩,
     ⟨"rc_cali_en", .rcCaliEn, 1⟩,
     ⟨"dcoc_cali_en", .dcocCaliEn, 1⟩,
     ⟨"txiq_cali_en", .txiqCaliEn, 1⟩,
     ⟨"rxiq_cali_en", .rxiqCaliEn, 1⟩,
     ⟨"txpower_cali_en", .txpowerCaliEn, 1⟩,
     ⟨"dpd_cali_en", .dpdCaliEn, 1⟩,
     ⟨"config_reserved", .configReserved, 1⟩,
     ⟨"rctune_value", .rctuneValue, 1⟩,
     ⟨"rc_cali_reserved", .rctuneReserved, 1⟩,
     ⟨"dcoc_cali_code", .dcocCaliCode, 2⟩,
     ⟨"dcoc_reserved", .dcocReserved, 4⟩,
     ⟨"rf_txiq_c11", .rfTxiqC11, 4⟩,
     ⟨"rf_txiq_c12", .rfTxiqC12, 4⟩,
     ⟨"rf_txiq_c22", .rfTxiqC22, 4⟩,
     ⟨"rf_txiq_dc", .rfTxiqDc, 4⟩,
     ⟨"txiq_reserved", .txiqReserved, 4⟩,
     ⟨"rf_rxiq_coef21_22", .rfRxiqCoef2122, 4⟩,
     ⟨"rf_rxiq_coef11_12", .rfRxiqCoef1112, 4⟩,
     ⟨"rxiq_reserved", .rxiqReserved, 4⟩,
     ⟨"txpower_psat_temperature", .psatTemperature, 4⟩,
     ⟨"txpower_psat_gainindex", .psatGainindex, 1⟩,
     ⟨"txpower_psat_power", .psatPower, 2⟩,
     ⟨"txpower_psat_backoff", .psatBackoff, 1⟩,
     ⟨"txpower_psat_upper_limit", .psatUpperLimit, 1⟩,
     ⟨"txpower_psat_lower_limit", .psatLowerLimit, 1⟩,
     ⟨"txpower_freq_delta_gainindex", .freqDeltaGainindex, 1⟩],
    (List.finRange 14).map (fun i =>
      ⟨"txpower_temperature_delta_gm_channel" ++ toString (i.val + 1), .gmChannel i, 1⟩),
    [⟨"txpower_reserved", .txpowerReserved, 4⟩,
     ⟨"dpd_cali_channel_num", .dpdCaliChannelNum, 1⟩,
     ⟨"dpd_cali_channel", .dpdCaliChannel, 1⟩],
    (List.finRange 3).map (fun i =>
      ⟨"channel" ++ toString (i.val + 1) ++ "_dpd_cali_table", .dpdCaliTable i, 4⟩),
    [⟨"dpd_reserved", .dpdReserved, 4⟩,
     ⟨"rf_ctune", .rfCtune, 1⟩,
     ⟨"rf_reserved", .rfReserved, 4⟩,
     ⟨"tpc_cfg", .tpcCfg, 4⟩,
     ⟨"tpc_reserved", .tpcReserved, 4⟩]]

def caliTableMatch (itm : List Char) : Option Row := caliTable.find? fun row => row.itm.toList = itm

def parBytes (size : Nat) (par : List Int) : List UInt8 :=
  par.flatMap fun p => toLe size (p % 256 ^ size).toNat

/-- `wifi_nvm_set_cmd`: the parameters are stored one behind the other from the member on; a store
outside the structure has no result. -/
def wifiNvmSetCmd (row : Row) (par : List Int) (data : List UInt8) : Option (List UInt8) :=
  let bytes := parBytes row.type par
  if row.member.place.offset + bytes.length ≤ data.length then
    some (patch data row.member.place.offset bytes)
  else none

def setLine (line : List Char) (data : List UInt8) : Option (List UInt8) :=
  (getCmdPar line).bind fun cmd =>
    match caliTableMatch cmd.itm with
    | none => some data
    | some row => wifiNvmSetCmd row cmd.par data

def wifiNvmBufOperate (data : List UInt8) (line : List Char) : List Char → Option (List UInt8)
  | [] => some data
  | c :: cs =>
    if c = '\n' ∨ c = '\r' ∨ c = '\x00' then
      (if 5 ≤ line.length then setLine line data else some data).bind fun data =>
        wifiNvmBufOperate data [] cs
    else wifiNvmBufOperate data (line ++ [c]) cs

def wifiNvmParse (text : List Char) (data : List UInt8) : Option (List UInt8) :=
  wifiNvmBufOperate data [] (text.take caliMaxSize)

end SprdVendor.Download
