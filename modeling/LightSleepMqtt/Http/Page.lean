import LightSleepMqtt.Http.Form

/-! The page of `http_config.c`: `HTTPConfig_GetForm` writes a table with one row a field of the
configuration. The blocks the rows are written in, of 128 bytes each, and the growing block of the
page are taken to have room. -/
namespace LightSleepMqtt.Http
open Config
set_option autoImplicit false

variable (fp : FloatingPoint)

/-! ## Numbers -/

/-- `%d`. -/
def printDecimal (n : ℤ) : List UInt8 := ascii (toString n)

/-- `%0*d` of a number that is not negative. -/
def padded (width : ℕ) (n : ℤ) : List UInt8 :=
  List.replicate (width - (printDecimal n).length) '0'.toUInt8 ++ printDecimal n

def power (base : ℤ) : ℕ → ℤ
  | 0 => 1
  | exp + 1 => power base exp * base

/-- The sign of the decimals is dropped, and with it that of a number between -1 and 0. -/
def ftoa (num : fp.Float) (decimals : ℕ) : List UInt8 :=
  let whole := fp.float.toInt num
  let decimal := fp.float.toInt
    (fp.float.mul (fp.float.sub num (fp.float.ofInt whole)) (fp.float.ofInt (power 10 decimals)))
  let decimal := if decimal < 0 then decimal - 2 * decimal else decimal
  printDecimal whole ++ ascii "." ++ padded decimals decimal

/-! ## Rows -/

/-- What `%s` writes for a member: up to the first NUL, which may lie behind the member. -/
def stringMember (cfg : SYSCFG) (f : Field) : List UInt8 := cstring (cfg.bytes.drop f.offset)

def HTTPConfig_GetFormInputFloat (buffer : List UInt8) (label name : String) (value : ℤ) : List UInt8 :=
  buffer ++ (ascii "<tr>\t\t<td>" ++ ascii label ++ ascii ":</td>\t\t<td><input name='" ++ ascii name ++
    ascii "' value='" ++ ftoa fp (fp.float.ofInt value) 2 ++ ascii "' type='number' step='.01'></td>\t</tr>")

def HTTPConfig_GetFormInputNumber (buffer : List UInt8) (label name : String) (value : ℤ) (type : String) :
    List UInt8 :=
  buffer ++ (ascii "<tr>\t\t<td>" ++ ascii label ++ ascii ":</td>\t\t<td><input name='" ++ ascii name ++
    ascii "' value='" ++ printDecimal value ++ ascii "' type='" ++ ascii type ++ ascii "'></td>\t</tr>")

def HTTPConfig_GetFormInputString (buffer : List UInt8) (label name : String) (value : List UInt8)
    (valueLength : ℤ) (type : String) : List UInt8 :=
  buffer ++ (ascii "<tr>\t\t<td>" ++ ascii label ++ ascii ":</td>\t\t<td><input name='" ++ ascii name ++
    ascii "' value='" ++ value ++ ascii "' maxlength='" ++ printDecimal valueLength ++ ascii "' type='" ++
    ascii type ++ ascii "'></td>\t</tr>")

/-- A call that appends a row. -/
structure Row where
  label : String
  name : String
  member : Member
  type : String

/-- The multipliers are passed as `int` and have no `type` of their own. -/
def Row.append (cfg : SYSCFG) (html : List UInt8) (row : Row) : List UInt8 :=
  match row.member with
  | .string f => HTTPConfig_GetFormInputString html row.label row.name (stringMember cfg f) f.size row.type
  | .number f => HTTPConfig_GetFormInputNumber html row.label row.name (Int.bmod (cfg.word f) 4294967296) row.type
  | .multiplier f =>
    HTTPConfig_GetFormInputFloat fp html row.label row.name (fp.double.toInt (fp.load (cfg.get f)))

def formRows : List Row := [
  ⟨"WiFi SSID", "sta_ssid", .string .sta_ssid, "text"⟩,
  ⟨"WiFi Password", "sta_pwd", .string .sta_pwd, "password"⟩,
  ⟨"MQTT Host", "mqtt_host", .string .mqtt_host, "text"⟩,
  ⟨"MQTT Port", "mqtt_port", .number .mqtt_port, "number"⟩,
  ⟨"MQTT User Name", "mqtt_user", .string .mqtt_user, "text"⟩,
  ⟨"MQTT Password", "mqtt_pass", .string .mqtt_pass, "password"⟩,
  ⟨"MQTT Keep Alive", "mqtt_keepalive", .number .mqtt_keepalive, "number"⟩,
  ⟨"MQTT Root Topic", "mqtt_topicroot", .string .mqtt_topicroot, "text"⟩,
  ⟨"MQTT ADC0 Topic", "mqtt_topicadc0", .string .mqtt_topicadc0, "text"⟩,
  ⟨"MQTT ADC0 Multiplier", "mqtt_muladc0", .multiplier .mqtt_muladc0, ""⟩,
  ⟨"MQTT ADC1 Topic", "mqtt_topicadc1", .string .mqtt_topicadc1, "text"⟩,
  ⟨"MQTT ADC1 Multiplier", "mqtt_muladc1", .multiplier .mqtt_muladc1, ""⟩,
  ⟨"MQTT ADC2 Topic", "mqtt_topicadc2", .string .mqtt_topicadc2, "text"⟩,
  ⟨"MQTT ADC2 Multiplier", "mqtt_muladc2", .multiplier .mqtt_muladc2, ""⟩,
  ⟨"MQTT ADC3 Topic", "mqtt_topicadc3", .string .mqtt_topicadc3, "text"⟩,
  ⟨"MQTT ADC3 Multiplier", "mqtt_muladc3", .multiplier .mqtt_muladc3, ""⟩]

/-! ## The page -/

def formHead : String :=
  "<!DOCTYPE html><html><head>\t<title>ESP8266 V-Config</title></head><style>body\x7b" ++
  "\tfont-family: sans-serif;\tcolor: coral;\tbackground-color: aliceblue;\x7dinput\x7b" ++
  "\tborder-radius: 5px;\tborder: 1px solid coral;\theight: 20px;\tpadding: 5px;\x7d" ++
  "button\x7b\tborder-radius: 5px;\tbackground-color: coral;\tborder: 1px solid coral;" ++
  "\tcolor: aliceblue;\tpadding: 10px;\x7d</style><body><form method='post'>\t<table>" ++
  "\t\t<tbody>"

def formFoot : String :=
  "<tr>\t\t\t\t\t<td>\t\t\t\t\t\t<button>Save Settings</button>\t\t\t\t\t</td>\t\t\t\t</tr>" ++
  "\t\t\t</tbody>\t\t</table>\t</form>\t</body></html>"

def HTTPConfig_GetForm (clientId : List UInt8) (d : Device) : Device × List UInt8 :=
  let d := CFG_Load clientId d
  (d, formRows.foldl (Row.append fp d.sysCfg) (ascii formHead) ++ ascii formFoot)

variable {fp}

/-- **The page shows the active configuration**, and nothing else of the device. -/
theorem HTTPConfig_GetForm_shows {clientId : List UInt8} {d d' : Device}
    (h : activeSysCfg d.flash = activeSysCfg d'.flash) :
    (HTTPConfig_GetForm fp clientId d).2 = (HTTPConfig_GetForm fp clientId d').2 := by
  have hload : (CFG_Load clientId d).sysCfg = (CFG_Load clientId d').sysCfg := by
    by_cases hholder : (activeSysCfg d.flash).word .cfg_holder = CFG_HOLDER
    · rw [CFG_Load_active hholder, CFG_Load_active (h ▸ hholder)]
      exact h
    · rw [CFG_Load_default hholder, CFG_Load_default (h ▸ hholder)]
      rfl
  simp only [HTTPConfig_GetForm, hload]

/-- The response that `espconn_sent` is given. -/
def HTTPConfig_TCPServerSendResponse (error : ℤ) (html_txt : List UInt8) : List UInt8 :=
  ascii "HTTP/1.1 " ++ printDecimal error ++ ascii " OK\r\nContent-Length: " ++ printDecimal html_txt.length ++
    ascii "\r\nContent-Type: text/html\r\nConnection: Closed\r\n\r\n" ++ html_txt

end LightSleepMqtt.Http
