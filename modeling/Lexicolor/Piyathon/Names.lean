/-
What the Thai words of Piyathon are called in Python: one name for every keyword, built-in and
special name, and back.
-/

namespace Lexicolor.Piyathon

def keywordNames : List (String × String) := [
  ("และ", "and"), ("เป็น", "as"), ("ยืนยัน", "assert"), ("ไม่ประสาน", "async"),
  ("รอประสาน", "await"), ("หยุด", "break"), ("เมื่อ", "case"), ("ชั้น", "class"),
  ("ทำต่อ", "continue"), ("นิยาม", "def"), ("ลบ", "del"), ("อื่นถ้า", "elif"),
  ("อื่น", "else"), ("ยกเว้น", "except"), ("เท็จ", "False"), ("สุดท้าย", "finally"),
  ("สำหรับ", "for"), ("จาก", "from"), ("ทั่วไป", "global"), ("ถ้า", "if"),
  ("นำเข้า", "import"), ("ใน", "in"), ("คือ", "is"), ("แลมบ์ดา", "lambda"), ("เทียบ", "match"),
  ("นอกเขต", "nonlocal"), ("ไม่มีค่า", "None"), ("ไม่", "not"), ("หรือ", "or"),
  ("ผ่าน", "pass"), ("ยก", "raise"), ("คืนค่า", "return"), ("จริง", "True"), ("ลอง", "try"),
  ("ขณะ", "while"), ("ด้วย", "with"), ("ให้", "yield")]

def builtInNames : List (String × String) := [
  ("ค่าสัมบูรณ์", "abs"), ("อิเทอเรเตอร์อะซิงค์", "aiter"), ("ทั้งหมด", "all"),
  ("ถัดไปอะซิงค์", "anext"), ("ใดๆ", "any"), ("แอสกี", "ascii"), ("ฐานสอง", "bin"),
  ("บูลีน", "bool"), ("จุดพัก", "breakpoint"), ("แถวไบต์", "bytearray"), ("ไบต์", "bytes"),
  ("เรียกได้", "callable"), ("อักขระ", "chr"), ("เมธอดคลาส", "classmethod"),
  ("คอมไพล์", "compile"), ("จำนวนเชิงซ้อน", "complex"), ("ลบแอททริบิวต์", "delattr"),
  ("พจนานุกรม", "dict"), ("ไดเรกทอรี", "dir"), ("หารเอาเศษ", "divmod"), ("ลำดับ", "enumerate"),
  ("ประเมิน", "eval"), ("ประมวลผล", "exec"), ("กรอง", "filter"), ("ทศนิยม", "float"),
  ("จัดรูปแบบ", "format"), ("เซ็ตแช่แข็ง", "frozenset"), ("รับแอททริบิวต์", "getattr"),
  ("ตัวแปรโกลบอล", "globals"), ("มีแอททริบิวต์", "hasattr"), ("แฮช", "hash"),
  ("ช่วยเหลือ", "help"), ("ฐานสิบหก", "hex"), ("รหัส", "id"), ("รับค่า", "input"),
  ("จำนวนเต็ม", "int"), ("เป็นชนิด", "isinstance"), ("เป็นคลาสลูก", "issubclass"),
  ("วนซ้ำ", "iter"), ("ความยาว", "len"), ("รายการ", "list"), ("ตัวแปรท้องถิ่น", "locals"),
  ("แปลง", "map"), ("ค่าสูงสุด", "max"), ("มุมมองหน่วยความจำ", "memoryview"),
  ("ค่าต่ำสุด", "min"), ("ถัดไป", "next"), ("วัตถุ", "object"), ("ฐานแปด", "oct"),
  ("เปิด", "open"), ("รหัสอักขระ", "ord"), ("ยกกำลัง", "pow"), ("พิมพ์", "print"),
  ("คุณสมบัติ", "property"), ("ช่วง", "range"), ("ตัวแทน", "repr"), ("ย้อนกลับ", "reversed"),
  ("ปัดเศษ", "round"), ("เซ็ต", "set"), ("ตั้งแอททริบิวต์", "setattr"), ("ตัดส่วน", "slice"),
  ("เรียงลำดับ", "sorted"), ("เมธอดคงที่", "staticmethod"), ("สตริง", "str"), ("ผลรวม", "sum"),
  ("คลาสแม่", "super"), ("ทูเพิล", "tuple"), ("ชนิด", "type"), ("ตัวแปร", "vars"),
  ("จับคู่", "zip"), ("__นำเข้า__", "__import__")]

def specialNames : List (String × String) := [
  ("__ชื่อ__", "__name__"), ("__เอกสาร__", "__doc__"), ("__ไฟล์__", "__file__"),
  ("__พจนานุกรม__", "__dict__"), ("__แพ็กเกจ__", "__package__"), ("__เส้นทาง__", "__path__"),
  ("__โมดูล__", "__module__"), ("__คลาสฐาน__", "__bases__"), ("__คลาส__", "__class__"),
  ("__เริ่มต้น__", "__init__"), ("__ลบ__", "__del__"), ("__ตัวแทนทางการ__", "__repr__"),
  ("__ตัวแทน__", "__str__"), ("__ไบต์__", "__bytes__"), ("__จัดรูปแบบ__", "__format__"),
  ("__น้อยกว่า__", "__lt__"), ("__น้อยกว่าเท่ากับ__", "__le__"), ("__เท่ากับ__", "__eq__"),
  ("__ไม่เท่ากับ__", "__ne__"), ("__มากกว่า__", "__gt__"), ("__มากกว่าเท่ากับ__", "__ge__"),
  ("__แฮช__", "__hash__"), ("__บูลีน__", "__bool__"), ("__เรียกใช้__", "__call__"),
  ("__ความยาว__", "__len__"), ("__เข้าถึงสมาชิก__", "__getitem__"),
  ("__กำหนดสมาชิก__", "__setitem__"), ("__ลบสมาชิก__", "__delitem__"),
  ("__วนซ้ำ__", "__iter__"), ("__ถัดไป__", "__next__"), ("__เข้า__", "__enter__"),
  ("__ออก__", "__exit__"), ("__ช่องเก็บ__", "__slots__"), ("__ทั้งหมด__", "__all__")]

/-- Other spellings that the word lists use. -/
def alternates : List (String × String) := [
  ("เป็นอินสแตนซ์", "isinstance")]

/-- One Thai word for each Python name. -/
def names : List (String × String) := keywordNames ++ builtInNames ++ specialNames

/-- The Python name of a Thai word. -/
def pythonName (word : String) : Option String := (names ++ alternates).lookup word

/-- The Thai word of a Python name. -/
def thaiWord (python : String) : Option String := (names.map fun (thai, py) => (py, thai)).lookup python

end Lexicolor.Piyathon
