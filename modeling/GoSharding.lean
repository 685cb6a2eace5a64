import GoSharding.Go.Bytes
import GoSharding.Mysql.Encoding
import GoSharding.Server.Handshake
import GoSharding.Server.Conn
import GoSharding.Server.Writers
import GoSharding.Server.Responses
import GoSharding.Strconv
import GoSharding.Types.Value
import GoSharding.Types.Escape
import GoSharding.Types.Numeric
import GoSharding.Types.Integral
import GoSharding.Encoding.Base64
import GoSharding.Types.Ascii
import GoSharding.Encoding.Utf8
import GoSharding.Encoding.JsonString
import GoSharding.Encoding.JsonScanner
import GoSharding.Encoding.JsonDecode
import GoSharding.Types.Json
import GoSharding.Cc.Service
import GoSharding.Cc.Namespaces
import GoSharding.Cc.Fingerprints
import GoSharding.Gen.SqlGen
