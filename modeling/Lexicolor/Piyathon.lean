/-
Piyathon: Python with Thai keywords, built-in names and special names. Its shape is that of
Python: hash comments, decimal numbers, strings in single or triple quotes, and function and
class headers that end at a colon.
-/
import Lexicolor.Grammar.Stock

namespace Lexicolor.Piyathon

/-- The name the language is registered under. -/
def name : String := "piyathon"

/-- The word that begins a function header. -/
def define : String := "นิยาม"

/-- The word that begins a class header. -/
def classAnchor : String := "ชั้น"

def keywords : List String := [
  "และ", "เป็น", "ยืนยัน", "ไม่ประสาน", "รอประสาน", "หยุด", "เมื่อ", "ชั้น", "ทำต่อ", "นิยาม",
  "ลบ", "อื่นถ้า", "อื่น", "ยกเว้น", "สุดท้าย", "สำหรับ", "จาก", "ทั่วไป", "ถ้า", "นำเข้า",
  "ใน", "คือ", "แลมบ์ดา", "เทียบ", "นอกเขต", "ไม่", "หรือ", "ผ่าน", "ยก", "คืนค่า", "ลอง",
  "ขณะ", "ด้วย", "ให้"]

def builtIns : List String := [
  "พิมพ์", "ช่วง", "ผลรวม", "ค่าสูงสุด", "ค่าต่ำสุด", "ความยาว", "ค่าสัมบูรณ์",
  "อิเทอเรเตอร์อะซิงค์", "ทั้งหมด", "ถัดไปอะซิงค์", "ใดๆ", "แอสกี", "ฐานสอง", "บูลีน",
  "จุดพัก", "แถวไบต์", "ไบต์", "เรียกได้", "อักขระ", "เมธอดคลาส", "คอมไพล์", "จำนวนเชิงซ้อน",
  "ลบแอททริบิวต์", "พจนานุกรม", "ไดเรกทอรี", "หารเอาเศษ", "ลำดับ", "ประเมิน", "ประมวลผล",
  "กรอง", "ทศนิยม", "จัดรูปแบบ", "เซ็ตแช่แข็ง", "รับแอททริบิวต์", "ตัวแปรโกลบอล",
  "มีแอททริบิวต์", "แฮช", "ช่วยเหลือ", "ฐานสิบหก", "รหัส", "รับค่า", "จำนวนเต็ม",
  "เป็นอินสแตนซ์", "เป็นคลาสลูก", "วนซ้ำ", "รายการ", "ตัวแปรท้องถิ่น", "แปลง",
  "มุมมองหน่วยความจำ", "ถัดไป", "วัตถุ", "ฐานแปด", "เปิด", "รหัสอักขระ", "ยกกำลัง",
  "คุณสมบัติ", "ตัวแทน", "ย้อนกลับ", "ปัดเศษ", "เซ็ต", "ตั้งแอททริบิวต์", "ตัดส่วน",
  "เรียงลำดับ", "เมธอดคงที่", "สตริง", "คลาสแม่", "ทูเพิล", "ชนิด", "ตัวแปร", "จับคู่"]

def literals : List String := [
  "จริง", "เท็จ", "ไม่มีค่า", "__นำเข้า__", "__ชื่อ__", "__เอกสาร__", "__ไฟล์__",
  "__พจนานุกรม__", "__แพ็กเกจ__", "__เส้นทาง__", "__โมดูล__", "__คลาสฐาน__", "__คลาส__",
  "__เริ่มต้น__", "__ลบ__", "__ตัวแทนทางการ__", "__ตัวแทน__", "__ไบต์__", "__จัดรูปแบบ__",
  "__น้อยกว่า__", "__น้อยกว่าเท่ากับ__", "__เท่ากับ__", "__ไม่เท่ากับ__", "__มากกว่า__",
  "__มากกว่าเท่ากับ__", "__แฮช__", "__บูลีน__", "__เรียกใช้__", "__ความยาว__",
  "__เข้าถึงสมาชิก__", "__กำหนดสมาชิก__", "__ลบสมาชิก__", "__วนซ้ำ__", "__ถัดไป__", "__เข้า__",
  "__ออก__", "__ช่องเก็บ__", "__ทั้งหมด__"]

def grammar : Grammar where
  name := "Piyathon"
  aliases := [name, "pi"]
  caseInsensitive := false
  identifier := Stock.identifier
  keywords := KeywordTable.ofWords keywords builtIns literals
  rules := [Stock.hashComment, Stock.number, Stock.quotedString, Stock.blockHeader .function define,
    Stock.blockHeader .classDef classAnchor]
  extensions := ["pi"]
  mimeTypes := ["text/x-piyathon"]

end Lexicolor.Piyathon
